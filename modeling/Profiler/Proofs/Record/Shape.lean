/-
# What of an attr decides decoding

Of the attr that decodes a record only four fields count: the sample type, the
read format, the user registers, and whether records that are no samples have
a last part; and the user registers count only for samples.

Key definitions: `Attr.ShapedLike`, `Sample.blank`.
Key theorems: `Record.parseBody_congr`, `Record.decode_congr`,
`Record.decode_eq_iff`.
-/
import Profiler.Proofs.Record.RoundTrip

namespace Profiler

/-- Two attrs that give their records one shape, the user registers apart. -/
structure Attr.ShapedLike (a b : Attr) : Prop where
  sampleType : a.sampleType = b.sampleType
  readFormat : a.readFormat = b.readFormat
  sampleIdAll : a.has .sampleIdAll = b.has .sampleIdAll

variable {a b : Attr}

theorem SampleId.parse_congr (h : a.ShapedLike b) : SampleId.parse a = SampleId.parse b := by
  have hshape : SampleId.ofAttr a = SampleId.ofAttr b := by
    rw [ofAttr, ofAttr, h.sampleType, h.sampleIdAll]
  rw [parse, parse, hshape]

theorem Sample.parse_congr (h : a.ShapedLike b) (hregs : a.sampleRegsUser = b.sampleRegsUser) :
    Sample.parse a = Sample.parse b := by
  have hshape : Sample.ofAttr a = Sample.ofAttr b := by
    rw [ofAttr, ofAttr, h.sampleType, h.readFormat, hregs]
  funext misc
  rw [parse, parse, hshape]

namespace Record

/-- The fields of a record are read alike. -/
theorem parseBody_congr (h : a.ShapedLike b) {header : RecordHeader}
    (hregs : RecordKind.ofCode? header.type = some .sample →
      a.sampleRegsUser = b.sampleRegsUser) : parseBody a header = parseBody b header := by
  have hid := SampleId.parse_congr h
  unfold parseBody
  cases hkind : RecordKind.ofCode? header.type with
  | none => rfl
  | some k =>
    cases k with
    | mmap => simp only [MmapRecord.parse, hid]
    | mmap2 => simp only [Mmap2Record.parse, hid]
    | comm => simp only [CommRecord.parse, hid]
    | fork | exit => simp only [TaskRecord.parse, hid]
    | lost => simp only [LostRecord.parse, hid]
    | throttle | unthrottle => simp only [ThrottleRecord.parse, hid]
    | read => simp only [ReadRecord.parse, h.readFormat, hid]
    | sample => simp only [Sample.parse_congr h (hregs hkind)]
    | tracingData | buildId | kernelSymbol | dso | symbol | split | splitEnd | eventId => rfl

/-- Bytes whose fields are read alike are decoded alike. -/
theorem decode_eq_of_parseBody_eq {bs : Bytes}
    (h : ∀ header, RecordHeader.decode bs = .ok header →
      parseBody a header = parseBody b header) :
    decode a bs = decode b bs ∧ decodeReassembled a bs = decodeReassembled b bs := by
  have hbody : ∀ header, RecordHeader.decode bs = .ok header →
      decodeBody a header = decodeBody b header := fun header hheader => by
    funext body
    rw [decodeBody, decodeBody, h header hheader]
  cases hheader : RecordHeader.decode bs with
  | error e =>
    have hfault : ∀ c, decode c bs = .error e ∧ decodeReassembled c bs = .error e := fun c =>
      ⟨bind_eq_error_iff.mpr (.inl hheader), bind_eq_error_iff.mpr (.inl hheader)⟩
    rw [(hfault a).1, (hfault b).1, (hfault a).2, (hfault b).2]
    exact ⟨rfl, rfl⟩
  | ok header =>
    rw [decode, decode, decodeReassembled, decodeReassembled, hheader]
    simp only [bind, Except.bind, hbody header hheader, and_self]

/-- **Attrs of one shape decode alike**, samples if they capture the same
registers. -/
theorem decode_congr (h : a.ShapedLike b) {bs : Bytes}
    (hregs : ∀ header, RecordHeader.decode bs = .ok header →
      RecordKind.ofCode? header.type = some .sample → a.sampleRegsUser = b.sampleRegsUser) :
    decode a bs = decode b bs :=
  (decode_eq_of_parseBody_eq fun header hheader => parseBody_congr h (hregs header hheader)).1

end Record

/-! ### Attrs that tell samples apart -/

/-- A sample with nothing but zeros. -/
def Sample.blank (a : Attr) : Sample :=
  { ofAttr a with read := if a.sampleType.has .read then { values := [(0, 0)] } else {} }

namespace Sample

theorem blank_wellFormed (a : Attr) : (blank a).WellFormed a where
  sampleType := rfl
  readFormat := rfl
  mask := rfl
  identifier _ := rfl
  ip _ := rfl
  pid _ := rfl
  tid _ := rfl
  time _ := rfl
  addr _ := rfl
  id _ := rfl
  streamId _ := rfl
  cpu _ := rfl
  cpuReserved _ := rfl
  period _ := rfl
  read := by
    show if a.sampleType.has .read then (blank a).read.WellFormed _ else (blank a).read = {}
    rw [blank]
    split
    · exact ⟨fun _ => rfl, fun _ => rfl, fun _ => rfl, by simp⟩
    · rfl
  callchain _ := rfl
  raw _ := rfl
  rawLength := show 0 < UInt32.size by decide
  branchStack _ := rfl
  abi _ := rfl
  userRegs := rfl
  stackData _ := rfl
  userStack _ := rfl

theorem blank_countsFit (a : Attr) : (blank a).CountsFit where
  values := by rw [blank]; dsimp only; split <;> decide
  callchain := show 0 < UInt64.size by decide
  branchStack := show 0 < UInt64.size by decide
  stack := show 0 < UInt64.size by decide

section Lengths

variable (present : Bool)

theorem length_whenSelected_le {n : Nat} {bs : Bytes} (h : bs.length ≤ n) :
    (Bytes.whenSelected present bs).length ≤ n := by
  cases present
  · exact Nat.zero_le n
  · exact h

theorem length_whenSelected_u64_le (v : UInt64) :
    (Bytes.whenSelected present (Bytes.u64 v)).length ≤ 8 :=
  length_whenSelected_le present (Bytes.length_u64 v).le

theorem length_whenSelected_u32_le (v : UInt32) :
    (Bytes.whenSelected present (Bytes.u32 v)).length ≤ 4 :=
  length_whenSelected_le present (Bytes.length_u32 v).le

end Lengths

theorem length_encode_blank_read (a : Attr) (fmt : ReadFormat) :
    ((blank a).read.encode fmt).length ≤ 40 := by
  have henabled := length_whenSelected_u64_le (fmt.has .timeEnabled) 0
  have hrunning := length_whenSelected_u64_le (fmt.has .timeRunning) 0
  have hid := length_whenSelected_u64_le (fmt.has .id) 0
  rw [blank]
  dsimp only
  split <;> rw [ReadValues.encode] <;> dsimp only <;> split <;>
    simp only [List.length_append, Bytes.length_u64, List.flatMap_cons, List.flatMap_nil,
      List.headD, List.length_nil, encodeCounter] <;> omega

theorem length_encode_blank (a : Attr) : (blank a).encode.length ≤ 200 :=
  calc (blank a).encode.length
      ≤ 8 + 8 + 4 + 4 + 8 + 8 + 8 + 8 + 4 + 4 + 8 + 40 + 8 + 4 + 8 + 8 + 8 := by
        simp only [encode, List.length_append]
        repeat' apply Nat.add_le_add
        all_goals first
          | exact length_whenSelected_u64_le _ _
          | exact length_whenSelected_u32_le _ _
          | exact length_whenSelected_le _ (length_encode_blank_read a _)
    _ ≤ 200 := by decide

end Sample

namespace Record

/-- **Attrs of one shape decode alike only if they capture the same registers.**
A sample tells which registers its attr captures. -/
theorem decode_eq_iff (h : a.ShapedLike b) :
    (∀ bs, decode a bs = decode b bs) ↔ a.sampleRegsUser = b.sampleRegsUser := by
  refine ⟨fun heq => ?_, fun hregs bs => decode_congr h fun _ _ _ => hregs⟩
  have hlen : (sample (.blank a)).encode.length ≤ maxRecordSize := by
    have hbody : (sample (.blank a)).body.length ≤ 200 := Sample.length_encode_blank a
    rw [encode_eq, List.length_append, RecordHeader.length_encode, recordHeaderSize, maxRecordSize]
    omega
  have hdecoded : decode b (sample (.blank a)).encode = .ok (sample (.blank a)) := by
    rw [← heq]
    exact decode_encode ⟨Sample.blank_wellFormed a, trivial⟩ (Sample.blank_countsFit a) hlen
  obtain ⟨header, body, -, -, hlayout, -⟩ := decode_eq_ok_iff.mp hdecoded
  exact hlayout.wellFormed.shaped.mask

end Record
end Profiler
