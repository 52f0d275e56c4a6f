/-
# Records and bytes determine each other

A record that agrees with its attr comes back from its encoding. In the other
direction decoding forgets three things only: how a name was spelled where it
was no text, what padded a name, a build id or a blob, and the misc bits of
the kinds that do not store them. Bytes in which these are as the encoder
writes them (`RecordKind.Clean`) come back from their record, and some kinds
have none of them (`Record.KeepsBytes`).

Key definitions: `Record.KeepsBytes`, `Record.StoresMisc`, `Bytes.CleanText`,
`Bytes.CleanBlob`, `RecordKind.Clean`.
Key theorems: `Record.decode_encode_of_wellFormed`, `Record.encode_of_decode`.
-/
import Profiler.Proofs.Record.Layout

namespace Profiler

open Format

namespace Record

variable {a : Attr} {r : Record}

/-! ### From records to bytes and back -/

theorem length_encode (r : Record) : r.encode.length = recordHeaderSize + r.body.length := by
  rw [encode_eq, List.length_append, RecordHeader.length_encode]

theorem header_size (h : r.encode.length ≤ maxRecordSize) :
    r.header.size.toNat = r.encode.length := by
  rw [length_encode] at h ⊢
  have hlt : recordHeaderSize + r.body.length < UInt16.size := Nat.lt_succ_of_le h
  rw [header, if_pos h, UInt16.toNat_ofNat_of_lt' hlt]

theorem decodeReassembled_encode (hr : r.WellFormed a) (hcounts : r.CountsFit) :
    decodeReassembled a r.encode = .ok r :=
  decodeReassembled_eq_ok_iff.mpr ⟨r.header, r.body, rfl, layout_body hr hcounts, rfl⟩

theorem decode_encode (hr : r.WellFormed a) (hcounts : r.CountsFit)
    (hlen : r.encode.length ≤ maxRecordSize) : decode a r.encode = .ok r :=
  decode_eq_ok_iff.mpr ⟨r.header, r.body, rfl, header_size hlen, layout_body hr hcounts, rfl⟩

/-- **A record that agrees with its attr survives its encoding.** It is read
back from pieces whatever its length is, and in one piece when its length fits
the header. -/
theorem decode_encode_of_wellFormed (hr : r.WellFormed a) (hcounts : r.CountsFit) :
    decodeReassembled a r.encode = .ok r ∧
      (r.encode.length ≤ maxRecordSize → decode a r.encode = .ok r) :=
  ⟨decodeReassembled_encode hr hcounts, decode_encode hr hcounts⟩

/-- A sample with a reading of a group, a call chain and registers. -/
theorem decode_encode_sample :
    let a : Attr := {
      sampleType := SampleMask.of [.ip, .tid, .read, .callchain, .regsUser]
      readFormat := ReadField.group.mask
      sampleRegsUser := 5 }
    let r : Record := sample { Sample.ofAttr a with
      ip := 4096
      pid := 7
      tid := 8
      read := { values := [(1, 0), (2, 0)] }
      callchain := [4096, 8192]
      userRegs := { abi := 2, mask := 5, values := [10, 11] } }
    r.WellFormed a ∧ r.CountsFit ∧ r.encode.length ≤ maxRecordSize ∧
      decode a r.encode = .ok r := by
  intro a r
  have hr : r.WellFormed a := by decide
  have hcounts : r.CountsFit := by decide
  have hlen : r.encode.length ≤ maxRecordSize := by decide
  exact ⟨hr, hcounts, hlen, (decode_encode_of_wellFormed hr hcounts).2 hlen⟩

/-- A reading that is a record of its own must be laid out as the attr asks:
the decoder does not see any other layout. -/
theorem read_shaped_not_decoded :
    let a : Attr := {}
    let r : ReadRecord := { readFormat := ReadField.id.mask, values := { values := [(5, 0)] } }
    (read r).Shaped a ∧ r.values.WellFormed a.readFormat ∧ (read r).CountsFit ∧
      decodeReassembled a (read r).encode = .error (.recordTail 8 8) := by
  intro a r
  exact ⟨by decide, by decide, by decide, by decide⟩

end Record

/-! ### Bytes that decoding keeps -/

/-- The text at the start is UTF-8, and zeros pad it. -/
def Bytes.CleanText (alignment : Nat) (bs : Bytes) : Prop := ∀ raw rest,
  bs.untilNul? = some (raw, rest) → Utf8.Valid raw ∧
    ∀ b ∈ rest.take (alignUp (raw.length + 1) alignment - (raw.length + 1)), b = 0

/-- Zeros are all that follows a blob of the length in the first word. -/
def Bytes.CleanBlob (bs : Bytes) : Prop :=
  ∀ b ∈ bs.drop (4 + Bytes.toNat (bs.take 4)), b = 0

/-- The fields of a record of the kind spell its name as the encoder does and
are padded with zeros. -/
def RecordKind.Clean : RecordKind → Bytes → Prop
  | .mmap, body => Bytes.CleanText 8 (body.drop 32)
  | .mmap2, body => Bytes.CleanText 8 (body.drop 64)
  | .comm, body => Bytes.CleanText 8 (body.drop 8)
  | .dso, body => Bytes.CleanText 8 (body.drop 16)
  | .symbol, body => Bytes.CleanText 8 (body.drop 24)
  -- an id of 20 bytes in a field of 24 stands before the name
  | .buildId, body => (∀ b ∈ (body.drop 24).take 4, b = 0) ∧ Bytes.CleanText 64 (body.drop 28)
  | .tracingData, body => Bytes.CleanBlob body
  | .kernelSymbol, body => Bytes.CleanBlob body
  | _, _ => True

namespace Record

/-- Whether the misc bits of the header are part of the record. -/
def StoresMisc : Record → Prop
  | tracingData _ | kernelSymbol _ | dso _ | symbol _ | split _ | splitEnd | eventIds _ => False
  | _ => True

/-- Whether decoding forgets nothing about a record of this kind. -/
def KeepsBytes : Record → Prop
  | sample _ | fork _ | exit _ | lost _ | throttle _ | unthrottle _ | read _ | unknown _ => True
  | _ => False

end Record

theorem eq_replicate_of_forall_zero {bs : Bytes} {n : Nat} (hlen : bs.length = n)
    (h : ∀ b ∈ bs, b = 0) : bs = List.replicate n 0 :=
  List.eq_replicate_iff.mpr ⟨hlen, h⟩

theorem paddedText_of_clean {alignment : Nat} (halign : 0 < alignment) {text more : Bytes}
    {s : String} (h : Format.text alignment text s) (hclean : Bytes.CleanText alignment (text ++ more)) :
    text = Bytes.paddedText s alignment := by
  obtain ⟨raw, padding, rfl, hraw, hlen, rfl⟩ := h
  obtain ⟨hvalid, hzero⟩ := hclean raw (padding ++ more)
    (Bytes.untilNul?_eq_some_iff.mpr ⟨by simp, hraw⟩)
  have hpadding : padding.length = alignUp (raw.length + 1) alignment - (raw.length + 1) := by
    rw [← hlen, List.length_append, List.length_cons]
    omega
  rw [List.take_left' hpadding] at hzero
  have hencode : Utf8.encode (Utf8.decode raw) = raw := Utf8.encode_decode hvalid
  have hsize : (Utf8.decode raw).utf8ByteSize = raw.length := by rw [← Utf8.length_encode, hencode]
  have hle : raw.length + 1 ≤ alignUp (raw.length + 1) alignment := le_alignUp _ _ halign
  rw [Bytes.paddedText, Bytes.paddedTextLength, hsize, hencode, Bytes.fixed_eq_append (by omega),
    eq_replicate_of_forall_zero hpadding hzero, ← List.replicate_succ]
  congr 2
  omega

theorem encodeBlob_of_clean {alignment : Nat} (halign : 0 < alignment) {bs data : Bytes}
    (h : Format.blob alignment bs data) (hclean : bs.CleanBlob) : bs = encodeBlob data alignment := by
  obtain ⟨hlt, padding, rfl, hpadding⟩ := h
  have hword : (Bytes.u32 (UInt32.ofNat data.length)).toNat = data.length := by
    have := congrArg UInt32.toNat (Bytes.ofNat_toNat_u32 (UInt32.ofNat data.length))
    have hbytes := Bytes.toNat_lt (Bytes.u32 (UInt32.ofNat data.length))
    rw [Bytes.length_u32] at hbytes
    rwa [UInt32.toNat_ofNat_of_lt' (by exact hbytes), UInt32.toNat_ofNat_of_lt' hlt] at this
  rw [Bytes.CleanBlob, List.take_left' (Bytes.length_u32 _), hword, ← List.drop_drop,
    List.drop_left' (Bytes.length_u32 _), List.drop_left' rfl] at hclean
  rw [encodeBlob, Bytes.fixed_eq_append (le_alignUp _ _ halign),
    eq_replicate_of_forall_zero hpadding hclean]

theorem RecordHeader.misc_bytes (h : RecordHeader) (body : Bytes) :
    ((h.encode ++ body).drop 4).take 2 = Bytes.u16 h.misc := by
  simp only [encode, List.append_assoc]
  rw [List.drop_left' (Bytes.length_u32 _), List.take_left' (Bytes.length_u16 _)]

namespace Record

variable {a : Attr} {misc : UInt16} {bs : Bytes} {r : Record}

theorem misc_of_not_storesMisc (h : ¬ r.StoresMisc) : r.misc = 0 := by
  cases r <;> first | rfl | exact (h trivial).elim

namespace Layout

theorem misc_eq (h : Layout a misc bs r) (hmisc : r.StoresMisc) : r.misc = misc := by
  cases r with
  | mmap r | mmap2 r | comm r => exact h.1.1
  | exit r | fork r | lost r | throttle r | unthrottle r | read r | sample r => exact h.1.1
  | buildId r | unknown r => exact h.1
  | _ => exact hmisc.elim

theorem body_of_keepsBytes (h : Layout a misc bs r) (hkeeps : r.KeepsBytes) : bs = r.body := by
  cases r with
  | exit r | fork r | lost r | throttle r | unthrottle r | read r | sample r => exact h.2
  | unknown r => exact h.2.1.symm
  | _ => exact hkeeps.elim

theorem body_of_clean (h : Layout a misc bs r) {k : RecordKind} (hkind : r.kind? = some k)
    (hclean : k.Clean bs) : bs = r.body := by
  cases r with
  | mmap r | mmap2 r | comm r =>
    cases hkind
    obtain ⟨-, text, htext, rfl⟩ := h
    rw [RecordKind.Clean, List.drop_left' (by rfl)] at hclean
    rw [body, ← paddedText_of_clean (by decide) htext hclean, List.append_assoc]
  | dso r | symbol r =>
    cases hkind
    obtain ⟨-, text, htext, rfl⟩ := h
    rw [RecordKind.Clean, List.drop_left' (by rfl)] at hclean
    rw [body, ← paddedText_of_clean (by decide) htext hclean, List.append_nil]
  | buildId r =>
    cases hkind
    obtain ⟨-, spare, text, hspare, htext, rfl⟩ := h
    obtain ⟨hzero, hclean⟩ := hclean
    have hid : (Bytes.u32 r.pid ++ r.buildId.bytes).length = 24 := by
      rw [List.length_append, Bytes.length_u32, r.buildId.length_bytes]
    have hfront : (Bytes.u32 r.pid ++ r.buildId.bytes ++ spare).length = 28 := by
      rw [List.length_append, hid, hspare]
    rw [← List.append_assoc, List.drop_left' hid, List.take_left' hspare] at hzero
    rw [← List.append_assoc, ← List.append_assoc, List.drop_left' hfront,
      ← List.append_nil text] at hclean
    have hfixed : r.buildId.bytes.fixed 24 = r.buildId.bytes ++ spare := by
      rw [Bytes.fixed_eq_append (by rw [r.buildId.length_bytes]; decide), r.buildId.length_bytes,
        eq_replicate_of_forall_zero hspare hzero]
    rw [body, hfixed, ← paddedText_of_clean (by decide) htext hclean]
    simp only [List.append_assoc]
  | tracingData data | kernelSymbol data =>
    cases hkind
    exact encodeBlob_of_clean (by decide) h hclean
  | split data => exact h
  | splitEnd => exact h
  | eventIds ids => exact h.2
  | unknown r => cases hkind
  | _ => exact h.body_of_keepsBytes trivial

end Layout

theorem header_eq {h : RecordHeader} (htype : r.type = h.type) (hmisc : r.misc = h.misc)
    (hsize : h.size.toNat = recordHeaderSize + r.body.length) : r.header = h := by
  obtain ⟨type, misc, size⟩ := h
  have hfits : recordHeaderSize + r.body.length ≤ maxRecordSize :=
    Nat.le_of_lt_succ (hsize ▸ size.toNat_lt)
  rw [header, htype, hmisc, if_pos hfits, ← hsize, UInt16.ofNat_toNat]

theorem encode_eq_of_body_eq {h : RecordHeader} {body : Bytes} (htype : r.type = h.type)
    (hmisc : r.misc = h.misc) (hbody : body = r.body)
    (hsize : h.size.toNat = (h.encode ++ body).length) : r.encode = h.encode ++ body := by
  rw [List.length_append, h.length_encode, hbody] at hsize
  rw [encode_eq, header_eq htype hmisc hsize, hbody]

/-- **Decoding is stable, and exact where nothing is forgotten.** The record
that bytes stand for survives its encoding. The encoding is the bytes
themselves for the kinds that keep all of them, and for every other kind when
the fields are clean and the header has no misc bits that the kind does not
store. -/
theorem encode_of_decode {a : Attr} {bs : Bytes} {r : Record} (h : decode a bs = .ok r) :
    decodeReassembled a r.encode = .ok r ∧
      (r.KeepsBytes → r.encode = bs) ∧
      (∀ k, r.kind? = some k → k.Clean (bs.drop recordHeaderSize) →
        (¬ r.StoresMisc → (bs.drop 4).take 2 = [0, 0]) → r.encode = bs) := by
  obtain ⟨header, body, rfl, hsize, hr, htype⟩ := decode_eq_ok_iff.mp h
  refine ⟨decodeReassembled_encode hr.wellFormed hr.countsFit, fun hkeeps => ?_,
    fun k hkind hclean hmisc => ?_⟩
  · have hmisc : r.misc = header.misc := hr.misc_eq (by cases r <;> trivial)
    exact encode_eq_of_body_eq htype hmisc (hr.body_of_keepsBytes hkeeps) hsize
  · rw [List.drop_left' header.length_encode] at hclean
    have hmisc : r.misc = header.misc := by
      by_cases hstores : r.StoresMisc
      · exact hr.misc_eq hstores
      · have hzero : Bytes.u16 header.misc = Bytes.u16 0 :=
          (header.misc_bytes body).symm.trans (hmisc hstores)
        rw [misc_of_not_storesMisc hstores, ← Bytes.ofNat_toNat_u16 header.misc, hzero,
          Bytes.ofNat_toNat_u16]
    exact encode_eq_of_body_eq htype hmisc (hr.body_of_clean hkind hclean) hsize

/-- A lost record, exact without a condition, and a named record whose name is
clean. -/
theorem encode_of_decode_lost_symbol :
    let lostBytes : Bytes := [2, 0, 0, 0, 1, 0, 24, 0] ++ Bytes.u64s [9, 4]
    let lostRecord : Record := lost { misc := 1, id := 9, lost := 4 }
    let symbolBytes : Bytes := [3, 128, 0, 0, 0, 0, 40, 0] ++ Bytes.u64s [4096, 16, 1, 97]
    let symbolRecord : Record := symbol { addr := 4096, len := 16, dsoId := 1, name := "a" }
    (decode {} lostBytes = .ok lostRecord ∧ lostRecord.KeepsBytes ∧ lostRecord.encode = lostBytes) ∧
      decode {} symbolBytes = .ok symbolRecord ∧ symbolRecord.kind? = some .symbol ∧
        RecordKind.symbol.Clean (symbolBytes.drop recordHeaderSize) ∧
        (symbolBytes.drop 4).take 2 = [0, 0] ∧ symbolRecord.encode = symbolBytes ∧
        decodeReassembled {} symbolRecord.encode = .ok symbolRecord := by
  intro lostBytes lostRecord symbolBytes symbolRecord
  have hlost : decode {} lostBytes = .ok lostRecord := by decide
  have hsymbol : decode {} symbolBytes = .ok symbolRecord := by decide
  have hclean : RecordKind.symbol.Clean (symbolBytes.drop recordHeaderSize) := by
    intro raw rest h
    obtain ⟨rfl, rfl⟩ : [97] = raw ∧ [0, 0, 0, 0, 0, 0] = rest := by
      have h : some ([97], [0, 0, 0, 0, 0, 0]) = some (raw, rest) := h
      simpa using h
    exact ⟨Utf8.valid_iff.mpr ⟨"a", by decide⟩, by simp [alignUp]⟩
  obtain ⟨hstable, -, hexact⟩ := encode_of_decode hsymbol
  exact ⟨⟨hlost, trivial, (encode_of_decode hlost).2.1 trivial⟩, hsymbol, rfl, hclean, by decide,
    hexact .symbol rfl hclean fun _ => by decide, hstable⟩

end Record
end Profiler
