/-
# The event id of an encoded record

The id in a sample stands at a place that is counted from the start, and in
another record at one that is counted from the end. Where the attr of a record
has these places, the id that is looked up in the encoding is the one that the
record holds; so a reader learns whose a record is before it decodes it.

Key definition: `Record.PlacesId`.
Key theorems: `idPositions_of_commonIdPositions`, `Record.peekEventId_of_placesId`,
`Record.peekEventId_encode`, `Record.peekEventId_encode_of_decode`,
`Record.peekEventId_of_decode`.
-/
import Profiler.Proofs.Record.RoundTrip
import Profiler.Record.EventId

namespace Profiler

/-! ### Positions that attrs agree on -/

theorem idPositions_of_agree {attrs : List Attr} {common? : Option IdPositions} {p : IdPositions}
    (h : agreeOnIdPositions common? attrs = .ok p) :
    (∀ common, common? = some common → common = p) ∧
      ∀ a ∈ attrs, a.sampleType.idPositions? = some p := by
  induction attrs generalizing common? with
  | nil =>
    cases common? with
    | none => cases h
    | some common =>
      cases h
      exact ⟨fun _ h => (Option.some.inj h).symm, fun _ ha => absurd ha List.not_mem_nil⟩
  | cons a rest ih =>
    rw [agreeOnIdPositions] at h
    cases hpositions : a.sampleType.idPositions? with
    | none =>
      rw [hpositions] at h
      cases h
    | some q =>
      simp only [hpositions] at h
      cases common? with
      | none =>
        obtain ⟨hq, hrest⟩ := ih h
        refine ⟨fun _ hnone => (nomatch hnone), List.forall_mem_cons.mpr ⟨?_, hrest⟩⟩
        rw [hpositions, hq q rfl]
      | some common =>
        dsimp only at h
        split at h
        · next heq =>
          obtain ⟨hcommon, hrest⟩ := ih h
          refine ⟨hcommon, List.forall_mem_cons.mpr ⟨?_, hrest⟩⟩
          rw [hpositions, ← heq, hcommon common rfl]
        · cases h

theorem idPositions_of_commonIdPositions {attrs : List Attr} {p : IdPositions}
    (h : commonIdPositions attrs = .ok p) : ∀ a ∈ attrs, a.sampleType.idPositions? = some p :=
  (idPositions_of_agree h).2

theorem agreeOnIdPositions_of_forall {attrs : List Attr} {p : IdPositions}
    (h : ∀ a ∈ attrs, a.sampleType.idPositions? = some p) :
    agreeOnIdPositions (some p) attrs = .ok p := by
  induction attrs with
  | nil => rfl
  | cons a rest ih =>
    obtain ⟨ha, hrest⟩ := List.forall_mem_cons.mp h
    rw [agreeOnIdPositions]
    simp only [ha, if_true]
    exact ih hrest

theorem commonIdPositions_eq_ok_iff {attrs : List Attr} {p : IdPositions} (hne : attrs ≠ []) :
    commonIdPositions attrs = .ok p ↔ ∀ a ∈ attrs, a.sampleType.idPositions? = some p := by
  refine ⟨idPositions_of_commonIdPositions, fun h => ?_⟩
  cases attrs with
  | nil => exact absurd rfl hne
  | cons a rest =>
    obtain ⟨ha, hrest⟩ := List.forall_mem_cons.mp h
    rw [commonIdPositions, agreeOnIdPositions]
    simp only [ha]
    exact agreeOnIdPositions_of_forall hrest

theorem SampleMask.idPositions?_eq_some_iff {m : SampleMask} {p : IdPositions} :
    m.idPositions? = some p ↔
      m.idOffset = some p.inSample ∧ m.idOffsetFromEnd = some p.fromEnd := by
  obtain ⟨inSample, fromEnd⟩ := p
  rw [idPositions?]
  cases m.idOffset <;> cases m.idOffsetFromEnd <;> simp [bind, Option.bind, pure]

/-! ### The word at a position -/

/-- A word is found between what precedes and what follows it. -/
theorem peekEventId_eq_some {p : IdPositions} {h : RecordHeader} {bs front back : Bytes}
    {v : UInt64} (hheader : RecordHeader.decode bs = .ok h)
    (hkernel : h.type < firstUserDefinedType)
    (hbs : bs = front ++ (Bytes.u64 v ++ back)) (hfront : recordHeaderSize ≤ front.length)
    (hplace : if h.type = RecordKind.sample.code then p.inSample = front.length
      else p.fromEnd = 8 + back.length) : peekEventId p bs = some v := by
  have hlen : bs.length = front.length + (8 + back.length) := by
    rw [hbs, List.length_append, List.length_append, Bytes.length_u64]
  have hoffset : (if h.type = RecordKind.sample.code then some p.inSample
      else if p.fromEnd ≤ bs.length then some (bs.length - p.fromEnd) else none) =
        some front.length := by
    split at hplace
    · next hsample => rw [if_pos hsample, hplace]
    · next hother =>
      rw [if_neg hother, hplace, if_pos (by omega), hlen, Nat.add_sub_cancel]
  have hword : Bytes.splitAt? 8 (bs.drop front.length) = some (Bytes.u64 v, back) := by
    rw [hbs, List.drop_left' rfl, Bytes.splitAt?_append back (Bytes.length_u64 v)]
  have huser : ¬ firstUserDefinedType ≤ h.type := by
    rw [UInt32.not_le]
    exact hkernel
  rw [peekEventId, hheader]
  dsimp only
  rw [if_neg huser, hoffset]
  dsimp only
  rw [if_neg (by omega), hword, Option.map_some, Bytes.ofNat_toNat_u64]

theorem count_cons (m : SampleMask) (f : SampleField) (fs : List SampleField) :
    m.count (f :: fs) = (if m.has f then 1 else 0) + m.count fs := by
  rw [SampleMask.count, SampleMask.count, List.countP_cons, Nat.add_comm]

theorem length_whenSelected (present : Bool) (bs : Bytes) :
    (Bytes.whenSelected present bs).length = if present then bs.length else 0 := by
  cases present <;> rfl

/-! ### The id in the last part of a record -/

namespace SampleId

/-- The fields before the id. -/
def beforeId (s : SampleId) : Bytes :=
  Bytes.whenSelected (s.has .tid) (Bytes.u32 s.pid) ++
    Bytes.whenSelected (s.has .tid) (Bytes.u32 s.tid) ++
    Bytes.whenSelected (s.has .time) (Bytes.u64 s.time)

/-- The fields between the id and the identifier. -/
def afterId (s : SampleId) : Bytes :=
  Bytes.whenSelected (s.has .streamId) (Bytes.u64 s.streamId) ++
    Bytes.whenSelected (s.has .cpu) (Bytes.u32 s.cpu) ++
    Bytes.whenSelected (s.has .cpu) (Bytes.u32 s.cpuReserved)

theorem encode_eq (s : SampleId) : s.encode = s.beforeId ++
    (Bytes.whenSelected (s.has .id) (Bytes.u64 s.id) ++
      (s.afterId ++ Bytes.whenSelected (s.has .identifier) (Bytes.u64 s.identifier))) := by
  simp only [encode, beforeId, afterId, List.append_assoc]

theorem length_afterId {s : SampleId} {m : SampleMask} (hhas : ∀ f, s.has f = m.has f) :
    s.afterId.length = 8 * m.count [.streamId, .cpu] := by
  simp only [afterId, List.length_append, length_whenSelected, hhas, count_cons, Bytes.length_u64,
    Bytes.length_u32]
  cases m.has .streamId <;> cases m.has .cpu <;> rfl

/-- The id stands at its place from the end. -/
theorem encode_eq_around_id {a : Attr} {s : SampleId} (hs : s.WellFormed a)
    (hall : a.has .sampleIdAll) {offset : Nat} (h : a.sampleType.idOffsetFromEnd = some offset) :
    ∃ (front back : Bytes) (id : UInt64), s.encode = front ++ (Bytes.u64 id ++ back) ∧
      offset = 8 + back.length ∧ s.eventId = some id := by
  have hhas : ∀ f, s.has f = a.sampleType.has f := fun f => by
    rw [has, hs.sampleIdAll, hall, hs.sampleType, Bool.true_and]
  rw [SampleMask.idOffsetFromEnd] at h
  by_cases hidentifier : a.sampleType.has .identifier
  · rw [if_pos hidentifier] at h
    refine ⟨s.beforeId ++ (Bytes.whenSelected (s.has .id) (Bytes.u64 s.id) ++ s.afterId), [],
      s.identifier, ?_, (Option.some.inj h).symm, ?_⟩
    · rw [encode_eq, hhas .identifier, hidentifier, List.append_nil]
      simp only [List.append_assoc]
      rfl
    · rw [eventId, hhas .identifier, if_pos hidentifier]
  · rw [if_neg hidentifier] at h
    split at h
    · next hid =>
      refine ⟨s.beforeId, s.afterId, s.id, ?_, ?_, ?_⟩
      · rw [encode_eq, hhas .id, hid, hhas .identifier, Bool.eq_false_iff.mpr hidentifier]
        simp only [Bytes.whenSelected, if_true, Bool.false_eq_true, if_false, List.append_nil]
      · rw [length_afterId hhas]
        exact (Option.some.inj h).symm
      · rw [eventId, hhas .identifier, if_neg hidentifier, hhas .id, if_pos hid]
    · cases h

end SampleId

/-! ### The id in a sample -/

namespace Sample

/-- The fields between the identifier and the id. -/
def beforeId (s : Sample) : Bytes :=
  Bytes.whenSelected (s.has .ip) (Bytes.u64 s.ip) ++
    Bytes.whenSelected (s.has .tid) (Bytes.u32 s.pid) ++
    Bytes.whenSelected (s.has .tid) (Bytes.u32 s.tid) ++
    Bytes.whenSelected (s.has .time) (Bytes.u64 s.time) ++
    Bytes.whenSelected (s.has .addr) (Bytes.u64 s.addr)

theorem encode_eq (s : Sample) : ∃ back, s.encode =
    Bytes.whenSelected (s.has .identifier) (Bytes.u64 s.identifier) ++
      (s.beforeId ++ (Bytes.whenSelected (s.has .id) (Bytes.u64 s.id) ++ back)) := by
  apply Exists.intro
  simp only [encode, beforeId, List.append_assoc]
  rfl

theorem length_beforeId {s : Sample} {m : SampleMask} (hhas : ∀ f, s.has f = m.has f) :
    s.beforeId.length = 8 * m.count [.ip, .tid, .time, .addr] := by
  simp only [beforeId, List.length_append, length_whenSelected, hhas, count_cons, Bytes.length_u64,
    Bytes.length_u32]
  cases m.has .ip <;> cases m.has .tid <;> cases m.has .time <;> cases m.has .addr <;> rfl

/-- The id stands at its place from the start, which counts the header. -/
theorem encode_eq_around_id {a : Attr} {s : Sample} (hs : s.WellFormed a) {offset : Nat}
    (h : a.sampleType.idOffset = some offset) :
    ∃ (front back : Bytes) (id : UInt64), s.encode = front ++ (Bytes.u64 id ++ back) ∧
      offset = recordHeaderSize + front.length ∧ s.eventId = some id := by
  have hhas : ∀ f, s.has f = a.sampleType.has f := fun f => by rw [has, hs.sampleType]
  obtain ⟨back, hencode⟩ := encode_eq s
  rw [SampleMask.idOffset] at h
  by_cases hidentifier : a.sampleType.has .identifier
  · rw [if_pos hidentifier] at h
    refine ⟨[], s.beforeId ++ (Bytes.whenSelected (s.has .id) (Bytes.u64 s.id) ++ back),
      s.identifier, ?_, (Option.some.inj h).symm, ?_⟩
    · rw [hencode, hhas .identifier, hidentifier, List.nil_append]
      rfl
    · rw [eventId, hhas .identifier, if_pos hidentifier]
  · rw [if_neg hidentifier] at h
    split at h
    · next hid =>
      refine ⟨s.beforeId, back, s.id, ?_, ?_, ?_⟩
      · rw [hencode, hhas .id, hid, hhas .identifier, Bool.eq_false_iff.mpr hidentifier]
        rfl
      · rw [length_beforeId hhas]
        exact (Option.some.inj h).symm
      · rw [eventId, hhas .identifier, if_neg hidentifier, hhas .id, if_pos hid]
    · cases h

end Sample

/-! ### The id in every record of the kernel -/

namespace Record

/-- The fields after a header place the event id as the encoder does: they are
those of the sample, or end with the last part. -/
def PlacesId (body : Bytes) : Record → Prop
  | sample s => body = s.encode
  | r => ∀ s, r.sampleId? = some s → ∃ front, body = front ++ s.encode

theorem placesId_body (r : Record) : r.PlacesId r.body := by
  cases r with
  | sample s => exact rfl
  | mmap r | mmap2 r | comm r => rintro _ ⟨⟩; exact ⟨_, rfl⟩
  | exit r | fork r | lost r | throttle r | unthrottle r | read r => rintro _ ⟨⟩; exact ⟨_, rfl⟩
  | _ => exact nofun

/-- Whatever pads a name, it stands before the last part. -/
theorem Layout.placesId {a : Attr} {misc : UInt16} {body : Bytes} {r : Record}
    (h : Layout a misc body r) : r.PlacesId body := by
  cases r with
  | sample s => exact h.2
  | mmap r | mmap2 r | comm r =>
    rintro _ ⟨⟩
    obtain ⟨-, text, -, rfl⟩ := h
    exact ⟨_, (List.append_assoc _ _ _).symm⟩
  | exit r | fork r | lost r | throttle r | unthrottle r | read r =>
    rintro _ ⟨⟩
    obtain ⟨-, rfl⟩ := h
    exact ⟨_, rfl⟩
  | _ => exact nofun

theorem PlacesId.eq_append_sampleId {body : Bytes} {r : Record} {s : SampleId}
    (h : r.PlacesId body) (hs : r.sampleId? = some s) : ∃ front, body = front ++ s.encode := by
  cases r with
  | sample r => cases hs
  | _ => exact h s hs

theorem sampleId?_of_kernel {r : Record} {k : RecordKind} (hkind : r.kind? = some k)
    (hkernel : r.type < firstUserDefinedType) (hsample : r.type ≠ RecordKind.sample.code) :
    ∃ s, r.sampleId? = some s := by
  rw [type_eq_code hkind] at hkernel hsample
  cases r <;> cases hkind
  case sample => exact absurd rfl hsample
  all_goals first
    | exact ⟨_, rfl⟩
    | exact absurd hkernel (by decide)

theorem sampleId_wellFormed {a : Attr} {r : Record} {s : SampleId} (hr : r.WellFormed a)
    (h : r.sampleId? = some s) : s.WellFormed a := by
  have hshaped := hr.shaped
  cases r <;> cases h
  case mmap | mmap2 | comm | read => exact hshaped.2
  case exit | fork | lost | throttle | unthrottle => exact hshaped

theorem eventId_of_sampleId? {r : Record} {s : SampleId} (h : r.sampleId? = some s) :
    r.eventId = s.eventId := by
  cases r <;> cases h <;> rfl

/-- **The id in bytes is the one that their record holds,** whatever pads its
names. -/
theorem peekEventId_of_placesId {a : Attr} {r : Record} {k : RecordKind} {p : IdPositions}
    {h : RecordHeader} {body : Bytes} (hbody : r.PlacesId body) (htype : r.type = h.type)
    (hkind : r.kind? = some k) (hkernel : r.type < firstUserDefinedType) (hr : r.WellFormed a)
    (hall : a.has .sampleIdAll) (hp : a.sampleType.idPositions? = some p) :
    peekEventId p (h.encode ++ body) = r.eventId := by
  obtain ⟨hstart, hend⟩ := SampleMask.idPositions?_eq_some_iff.mp hp
  have hheader : RecordHeader.decode (h.encode ++ body) = .ok h :=
    RecordHeader.decode_eq_ok_iff.mpr ⟨body, rfl⟩
  have hkernel' : h.type < firstUserDefinedType := htype ▸ hkernel
  by_cases hsample : r.type = RecordKind.sample.code
  · obtain ⟨s, rfl⟩ : ∃ s, r = sample s := by
      rw [type_eq_code hkind] at hsample
      cases r <;> cases hkind <;> first | exact ⟨_, rfl⟩ | exact absurd hsample (by decide)
    obtain ⟨front, back, id, hencode, hoffset, hid⟩ := Sample.encode_eq_around_id hr.shaped hstart
    have hbytes : h.encode ++ body = (h.encode ++ front) ++ (Bytes.u64 id ++ back) := by
      rw [show body = s.encode from hbody, hencode, List.append_assoc]
    have hlen : (h.encode ++ front).length = recordHeaderSize + front.length := by
      rw [List.length_append, RecordHeader.length_encode]
    have hplace : if h.type = RecordKind.sample.code then p.inSample = (h.encode ++ front).length
        else p.fromEnd = 8 + back.length := by
      rw [if_pos (htype ▸ hsample), hlen, hoffset]
    rw [peekEventId_eq_some hheader hkernel' hbytes (hlen ▸ Nat.le_add_right _ _) hplace]
    exact hid.symm
  · obtain ⟨s, hs⟩ := sampleId?_of_kernel hkind hkernel hsample
    obtain ⟨front, hbody⟩ := hbody.eq_append_sampleId hs
    obtain ⟨between, back, id, hencode, hoffset, hid⟩ :=
      SampleId.encode_eq_around_id (sampleId_wellFormed hr hs) hall hend
    have hbytes : h.encode ++ body =
        (h.encode ++ (front ++ between)) ++ (Bytes.u64 id ++ back) := by
      rw [hbody, hencode]
      simp only [List.append_assoc]
    have hlen : recordHeaderSize ≤ (h.encode ++ (front ++ between)).length := by
      rw [List.length_append, RecordHeader.length_encode]
      exact Nat.le_add_right _ _
    have hplace : if h.type = RecordKind.sample.code
        then p.inSample = (h.encode ++ (front ++ between)).length
        else p.fromEnd = 8 + back.length := by
      rw [if_neg (htype ▸ hsample), hoffset]
    rw [peekEventId_eq_some hheader hkernel' hbytes hlen hplace, eventId_of_sampleId? hs, hid]

/-- **The id in an encoding is the one that the record holds.** -/
theorem peekEventId_encode {a : Attr} {r : Record} {k : RecordKind} {p : IdPositions}
    (hkind : r.kind? = some k) (hkernel : r.type < firstUserDefinedType) (hr : r.WellFormed a)
    (hall : a.has .sampleIdAll) (hp : a.sampleType.idPositions? = some p) :
    peekEventId p r.encode = r.eventId := by
  have htype : r.type = r.header.type := rfl
  rw [encode_eq]
  exact peekEventId_of_placesId r.placesId_body htype hkind hkernel hr hall hp

/-- **Decoding and encoding again leaves the id where it was.** -/
theorem peekEventId_encode_of_decode {a : Attr} {bs : Bytes} {r : Record} {p : IdPositions}
    (h : decode a bs = .ok r) (hkernel : r.type < firstUserDefinedType)
    (hall : a.has .sampleIdAll) (hp : a.sampleType.idPositions? = some p) :
    peekEventId p r.encode = peekEventId p bs := by
  obtain ⟨header, body, rfl, hsize, hr, htype⟩ := decode_eq_ok_iff.mp h
  cases hkind : r.kind? with
  | some k =>
    rw [peekEventId_encode hkind hkernel hr.wellFormed hall hp,
      peekEventId_of_placesId hr.placesId htype hkind hkernel hr.wellFormed hall hp]
  | none =>
    -- what is not understood is kept as it is
    obtain ⟨u, rfl⟩ : ∃ u, r = unknown u := by
      cases r <;> cases hkind
      exact ⟨_, rfl⟩
    rw [encode_eq_of_body_eq htype (hr.misc_eq trivial) (hr.body_of_keepsBytes trivial) hsize]

/-! ### The id before and after decoding -/

theorem kind?_of_sampleId? {r : Record} {s : SampleId} (h : r.sampleId? = some s) :
    ∃ k, r.kind? = some k ∧ k.code < firstUserDefinedType := by
  cases r <;> cases h <;> exact ⟨_, rfl, by decide⟩

/-- **The id is found before a record is decoded.** Where the attrs of a stream
have common positions, each record that one of them decodes to a sample, or to
a record with a last part, shows at its position the id that is decoded. -/
theorem peekEventId_of_decode {attrs : List Attr} {p : IdPositions} {a : Attr} {bs : Bytes}
    {r : Record} (hp : commonIdPositions attrs = .ok p) (ha : a ∈ attrs)
    (hall : a.has .sampleIdAll) (h : decode a bs = .ok r) :
    (∀ s, r = sample s → ∃ id, s.eventId = some id ∧ peekEventId p bs = some id) ∧
      ∀ s, r.sampleId? = some s → ∃ id, s.eventId = some id ∧ peekEventId p bs = some id := by
  have hpositions := idPositions_of_commonIdPositions hp a ha
  obtain ⟨hstart, hend⟩ := SampleMask.idPositions?_eq_some_iff.mp hpositions
  obtain ⟨header, body, rfl, -, hr, htype⟩ := decode_eq_ok_iff.mp h
  have hpeek : ∀ {k}, r.kind? = some k → r.type < firstUserDefinedType →
      peekEventId p (header.encode ++ body) = r.eventId := fun hkind hkernel =>
    peekEventId_of_placesId hr.placesId htype hkind hkernel hr.wellFormed hall hpositions
  constructor
  · rintro s rfl
    obtain ⟨-, -, id, -, -, hid⟩ := Sample.encode_eq_around_id hr.wellFormed.shaped hstart
    have hkernel : (sample s).type < firstUserDefinedType := by
      rw [type_eq_code (k := .sample) rfl]
      decide
    exact ⟨id, hid, (hpeek rfl hkernel).trans hid⟩
  · intro s hs
    obtain ⟨-, -, id, -, -, hid⟩ :=
      SampleId.encode_eq_around_id (sampleId_wellFormed hr.wellFormed hs) hall hend
    obtain ⟨k, hkind, hkernel⟩ := kind?_of_sampleId? hs
    rw [← type_eq_code hkind] at hkernel
    refine ⟨id, hid, ?_⟩
    rw [hpeek hkind hkernel, eventId_of_sampleId? hs, hid]

/-- One attr has ids and another identifiers. A sample of the first and a
record of the second are decoded, and their ids were already in sight. -/
theorem peekEventId_of_decode_mixed :
    let byId := { Attr.empty with sampleType := .of [.id, .period] }.set .sampleIdAll true
    let byIdentifier :=
      { Attr.empty with sampleType := .of [.identifier, .time] }.set .sampleIdAll true
    let s := { Sample.ofAttr byId with id := 77, period := 5 }
    let last := { SampleId.ofAttr byIdentifier with identifier := 78, time := 9 }
    let named := comm { comm := "a", sampleId := last }
    ∃ p, commonIdPositions [byId, byIdentifier] = .ok p ∧
      decode byId (sample s).encode = .ok (sample s) ∧
      peekEventId p (sample s).encode = some 77 ∧
      decode byIdentifier named.encode = .ok named ∧ peekEventId p named.encode = some 78 := by
  intro byId byIdentifier s last named
  have hp : commonIdPositions [byId, byIdentifier] = .ok ⟨8, 8⟩ := by decide +kernel
  have hsample : decode byId (sample s).encode = .ok (sample s) := by decide +kernel
  have hnamed : decode byIdentifier named.encode = .ok named := by decide +kernel
  have hall : byId.has .sampleIdAll ∧ byIdentifier.has .sampleIdAll := by decide
  obtain ⟨id, hid, hpeek⟩ := (peekEventId_of_decode hp (by simp) hall.1 hsample).1 s rfl
  obtain ⟨id', hid', hpeek'⟩ := (peekEventId_of_decode hp (by simp) hall.2 hnamed).2 last rfl
  have h77 : s.eventId = some 77 := by decide +kernel
  have h78 : last.eventId = some 78 := by decide +kernel
  exact ⟨_, hp, hsample, by rw [hpeek, ← hid, h77], hnamed, by rw [hpeek', ← hid', h78]⟩

end Record

end Profiler
