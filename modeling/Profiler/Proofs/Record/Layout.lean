/-
# The layout of every record

`Record.Layout` says which bytes after the header stand for which record,
under an attr and misc bits. The decoder reads exactly the layout
(`Record.decodeBody_eq_ok_iff`), so what decoding does follows from what a
layout is: the encoder writes one of the byte strings of a record
(`Record.layout_body`), and a record that stands for bytes is well formed
(`Record.Layout.wellFormed`).

Key definitions: `Record.Layout`, `RecordHeader.encode`, `Record.StoresMisc`.
Key theorems: `Record.follows_parseBody`, `Record.decodeBody_eq_ok_iff`,
`Record.decodeReassembled_eq_ok_iff`, `Record.decode_eq_ok_iff`,
`Record.layout_body`, `Record.Layout.wellFormed`, `Record.Layout.countsFit`.
-/
import Profiler.Proofs.Record.Kinds

namespace Profiler

open Format Parse

/-! ### Kinds and their numbers -/

theorem RecordKind.ofCode?_eq_some_iff {n : UInt32} {k : RecordKind} :
    ofCode? n = some k ↔ n = k.code := by
  constructor
  · intro h
    have hcode := List.find?_some h
    exact (beq_iff_eq.mp hcode).symm
  · rintro rfl
    exact ofCode?_code k

theorem RecordKind.code_injective {k l : RecordKind} (h : k.code = l.code) : k = l := by
  have hk := ofCode?_code k
  rw [h, ofCode?_code] at hk
  exact (Option.some.inj hk).symm

namespace Record

theorem type_eq_code {r : Record} {k : RecordKind} (h : r.kind? = some k) : r.type = k.code := by
  cases r <;> cases h <;> rfl

/-- The fields after the header that stand for a record, whose header has the
misc bits `misc`. -/
def Layout (a : Attr) (misc : UInt16) : Format Record := fun bs => fun
  | mmap r => named 8 MmapRecord.head MmapRecord.filename (fun r => r.sampleId.encode)
      (fun r => r.misc = misc ∧ r.sampleId.WellFormed a) bs r
  | mmap2 r => named 8 Mmap2Record.head Mmap2Record.filename (fun r => r.sampleId.encode)
      (fun r => r.misc = misc ∧ r.sampleId.WellFormed a) bs r
  | comm r => named 8 CommRecord.head CommRecord.comm (fun r => r.sampleId.encode)
      (fun r => r.misc = misc ∧ r.sampleId.WellFormed a) bs r
  | fork r | exit r =>
      written TaskRecord.encode (fun r => r.misc = misc ∧ r.sampleId.WellFormed a) bs r
  | lost r => written LostRecord.encode (fun r => r.misc = misc ∧ r.sampleId.WellFormed a) bs r
  | throttle r | unthrottle r =>
      written ThrottleRecord.encode (fun r => r.misc = misc ∧ r.sampleId.WellFormed a) bs r
  | read r => written ReadRecord.encode (fun r => r.misc = misc ∧ r.readFormat = a.readFormat ∧
      r.values.WellFormed r.readFormat ∧ r.values.values.length < UInt64.size ∧
      r.sampleId.WellFormed a) bs r
  | sample r =>
      written Sample.encode (fun r => r.misc = misc ∧ r.WellFormed a ∧ r.CountsFit) bs r
  | tracingData data => Format.blob 64 bs data
  | buildId r => BuildIdRecord.layout misc bs r
  | kernelSymbol kallsyms => Format.blob 8 bs kallsyms
  | dso r => named 8 DsoRecord.head DsoRecord.dsoName (fun _ => []) (fun _ => True) bs r
  | symbol r => named 8 SymbolRecord.head SymbolRecord.name (fun _ => []) (fun _ => True) bs r
  | split data => bs = data
  | splitEnd => bs = []
  | eventIds ids => written encodeIdPairs (fun ids => ids.length * 2 < UInt64.size) bs ids
  | unknown r => r.misc = misc ∧ r.data = bs ∧ RecordKind.ofCode? r.type = none

variable {a : Attr} {misc : UInt16} {bs : Bytes} {r : Record}

theorem Layout.ofCode?_type (h : Layout a misc bs r) : RecordKind.ofCode? r.type = r.kind? := by
  cases hkind : r.kind? with
  | some k => rw [type_eq_code hkind, RecordKind.ofCode?_code]
  | none =>
    cases r with
    | unknown r => exact h.2.2
    | _ => cases hkind

/-! ### The decoder follows the layout -/

theorem follows_kind {α : Type} (ctor : α → Record) {k : RecordKind} {p : Parse α} {F : Format α}
    (hp : Follows p F) (hlayout : ∀ bs v, Layout a misc bs (ctor v) ↔ F bs v)
    (hkind : ∀ r : Record, r.kind? = some k ↔ ∃ v, r = ctor v) :
    Follows (ctor <$> p) fun bs r => Layout a misc bs r ∧ r.kind? = some k := by
  refine (hp.map ctor).congr fun bs r => ⟨?_, ?_⟩
  · rintro ⟨v, hv, rfl⟩
    exact ⟨(hlayout bs v).mpr hv, (hkind _).mpr ⟨v, rfl⟩⟩
  · rintro ⟨hr, hk⟩
    obtain ⟨v, rfl⟩ := (hkind r).mp hk
    exact ⟨v, (hlayout bs v).mp hr, rfl⟩

/-- The fields of every kind of record but a piece are read by its layout. -/
theorem follows_parseBody (a : Attr) {h : RecordHeader} {k : RecordKind}
    (hk : RecordKind.ofCode? h.type = some k) (hsplit : k ≠ .split) :
    Follows (parseBody a h) fun bs r => Layout a h.misc bs r ∧ r.kind? = some k := by
  unfold parseBody
  rw [hk]
  cases k with
  | mmap =>
    exact follows_kind mmap (MmapRecord.follows_parse a h.misc) (fun _ _ => Iff.rfl)
      fun r => by cases r <;> simp [kind?]
  | mmap2 =>
    exact follows_kind mmap2 (Mmap2Record.follows_parse a h.misc) (fun _ _ => Iff.rfl)
      fun r => by cases r <;> simp [kind?]
  | comm =>
    exact follows_kind comm (CommRecord.follows_parse a h.misc) (fun _ _ => Iff.rfl)
      fun r => by cases r <;> simp [kind?]
  | fork =>
    exact follows_kind fork (TaskRecord.follows_parse a h.misc) (fun _ _ => Iff.rfl)
      fun r => by cases r <;> simp [kind?]
  | exit =>
    exact follows_kind exit (TaskRecord.follows_parse a h.misc) (fun _ _ => Iff.rfl)
      fun r => by cases r <;> simp [kind?]
  | lost =>
    exact follows_kind lost (LostRecord.follows_parse a h.misc) (fun _ _ => Iff.rfl)
      fun r => by cases r <;> simp [kind?]
  | throttle =>
    exact follows_kind throttle (ThrottleRecord.follows_parse a h.misc) (fun _ _ => Iff.rfl)
      fun r => by cases r <;> simp [kind?]
  | unthrottle =>
    exact follows_kind unthrottle (ThrottleRecord.follows_parse a h.misc) (fun _ _ => Iff.rfl)
      fun r => by cases r <;> simp [kind?]
  | read =>
    exact follows_kind read (ReadRecord.follows_parse a h.misc) (fun _ _ => Iff.rfl)
      fun r => by cases r <;> simp [kind?]
  | sample =>
    exact follows_kind sample (Sample.follows_parse a h.misc) (fun _ _ => Iff.rfl)
      fun r => by cases r <;> simp [kind?]
  | tracingData =>
    exact follows_kind tracingData (follows_parseBlob 64) (fun _ _ => Iff.rfl)
      fun r => by cases r <;> simp [kind?]
  | buildId =>
    exact follows_kind buildId (BuildIdRecord.follows_parse h.misc) (fun _ _ => Iff.rfl)
      fun r => by cases r <;> simp [kind?]
  | kernelSymbol =>
    exact follows_kind kernelSymbol (follows_parseBlob 8) (fun _ _ => Iff.rfl)
      fun r => by cases r <;> simp [kind?]
  | dso =>
    exact follows_kind dso DsoRecord.follows_parse (fun _ _ => Iff.rfl)
      fun r => by cases r <;> simp [kind?]
  | symbol =>
    exact follows_kind symbol SymbolRecord.follows_parse (fun _ _ => Iff.rfl)
      fun r => by cases r <;> simp [kind?]
  | split => exact (hsplit rfl).elim
  | splitEnd =>
    refine (Follows.built splitEnd).congr fun bs r => ⟨?_, ?_⟩
    · rintro ⟨hbs, rfl⟩
      exact ⟨hbs, rfl⟩
    · rintro ⟨hr, hkind⟩
      cases r <;> cases hkind
      exact ⟨hr, rfl⟩
  | eventId =>
    exact follows_kind eventIds follows_parseIdPairs (fun _ _ => Iff.rfl)
      fun r => by cases r <;> simp [kind?]

theorem decodeBody_eq_ok {a : Attr} {h : RecordHeader} {body : Bytes} {r : Record} :
    decodeBody a h body = .ok r ↔
      ∃ c, parseBody a h (Cursor.start body) = .ok (r, c) ∧ c.rest = [] := by
  have hrun : decodeBody a h body = (parseBody a h (Cursor.start body)).bind fun p =>
      if p.2.rest.isEmpty then .ok p.1 else .error (.recordTail p.2.rest.length h.type.toNat) := rfl
  rw [hrun]
  cases parseBody a h (Cursor.start body) with
  | error e => simp [Except.bind]
  | ok p =>
    obtain ⟨v, c⟩ := p
    simp only [Except.bind, List.isEmpty_iff, Except.ok.injEq, Prod.mk.injEq]
    constructor
    · intro hv
      split at hv
      · next hrest =>
        injection hv with hv
        exact ⟨c, ⟨hv, rfl⟩, hrest⟩
      · cases hv
    · rintro ⟨_, ⟨rfl, rfl⟩, hrest⟩
      rw [if_pos hrest]

/-- **The decoder accepts the bytes of a layout and no others.** -/
theorem decodeBody_eq_ok_iff {a : Attr} {h : RecordHeader} {body : Bytes} {r : Record} :
    decodeBody a h body = .ok r ↔ Layout a h.misc body r ∧ r.type = h.type := by
  rw [decodeBody_eq_ok]
  by_cases hsplit : RecordKind.ofCode? h.type = some .split
  · have hbody : parseBody a h (Cursor.start body) = .ok (split body, ⟨0 + body.length, []⟩) := by
      unfold parseBody
      rw [hsplit]
      rfl
    rw [hbody]
    constructor
    · rintro ⟨_, hr, -⟩
      cases hr
      exact ⟨rfl, (RecordKind.ofCode?_eq_some_iff.mp hsplit).symm⟩
    · rintro ⟨hr, htype⟩
      have hkind := hr.ofCode?_type
      rw [htype, hsplit] at hkind
      cases r <;> cases hkind
      exact ⟨_, by rw [show body = _ from hr], rfl⟩
  cases hk : RecordKind.ofCode? h.type with
  | some k =>
    have hk' : k ≠ .split := fun he => hsplit (by rw [hk, he])
    rw [(follows_parseBody a hk hk').run_eq_ok_iff]
    refine and_congr_right fun hr => ?_
    rw [← hr.ofCode?_type, RecordKind.ofCode?_eq_some_iff, RecordKind.ofCode?_eq_some_iff.mp hk]
  | none =>
    have hbody : parseBody a h (Cursor.start body) =
        .ok (unknown { type := h.type, misc := h.misc, data := body }, ⟨0 + body.length, []⟩) := by
      unfold parseBody
      rw [hk]
      rfl
    rw [hbody]
    constructor
    · rintro ⟨_, hr, -⟩
      cases hr
      exact ⟨⟨rfl, rfl, hk⟩, rfl⟩
    · rintro ⟨hr, htype⟩
      have hkind := hr.ofCode?_type
      rw [htype, hk] at hkind
      cases r <;> cases hkind
      obtain ⟨hmisc, hdata, -⟩ := hr
      exact ⟨_, by rw [← hmisc, ← hdata, ← htype]; rfl, rfl⟩

end Record

/-! ### The header -/

namespace RecordHeader

def encode (h : RecordHeader) : Bytes := Bytes.u32 h.type ++ Bytes.u16 h.misc ++ Bytes.u16 h.size

@[simp] theorem length_encode (h : RecordHeader) : h.encode.length = recordHeaderSize := by
  simp [encode, recordHeaderSize]

theorem follows_parse : Follows RecordHeader.parse (written encode fun _ => True) := by
  refine Follows.congr
    (Follows.field RecordHeader.type (fun _ _ => rfl) follows_u32 fun type =>
    Follows.field RecordHeader.misc (fun _ _ => rfl) follows_u16 fun misc =>
    Follows.field RecordHeader.size (fun _ _ => rfl) follows_u16 fun size =>
    Follows.built _) fun bs h => ?_
  simp only [nothing_eq_written, written_andThen_written, written, true_and, and_true,
    List.append_nil, encode, List.append_assoc]

theorem decode_eq_ok_iff {bs : Bytes} {h : RecordHeader} :
    decode bs = .ok h ↔ ∃ body, bs = h.encode ++ body := by
  have hrun : decode bs = (RecordHeader.parse (Cursor.start bs)).map Prod.fst := rfl
  rw [hrun]
  constructor
  · intro hok
    cases hparse : RecordHeader.parse (Cursor.start bs) with
    | error e => rw [hparse] at hok; cases hok
    | ok p =>
      obtain ⟨h', c⟩ := p
      rw [hparse] at hok
      cases hok
      obtain ⟨_, ⟨-, rfl⟩, hrest, -⟩ := follows_parse.consumed hparse
      exact ⟨c.rest, hrest⟩
  · rintro ⟨body, rfl⟩
    have hparse := follows_parse.reads (v := h) ⟨trivial, rfl⟩ 0 body
    rw [Cursor.start, hparse]
    rfl

theorem decode_bind_eq_ok_iff {α : Type} {bs : Bytes} {g : RecordHeader → Except Corruption α}
    {v : α} : (decode bs >>= g) = .ok v ↔ ∃ h body, bs = encode h ++ body ∧ g h = .ok v := by
  simp only [bind_eq_ok_iff, decode_eq_ok_iff, exists_and_right]

end RecordHeader

namespace Record

/-- The header that a record is stored with. -/
def header (r : Record) : RecordHeader where
  type := r.type
  misc := r.misc
  size := if recordHeaderSize + r.body.length ≤ maxRecordSize
    then UInt16.ofNat (recordHeaderSize + r.body.length) else 0

theorem encode_eq (r : Record) : r.encode = r.header.encode ++ r.body := rfl

/-- A record put together from pieces is a header and fields that agree with
its type. -/
theorem decodeReassembled_eq_ok_iff {a : Attr} {bs : Bytes} {r : Record} :
    decodeReassembled a bs = .ok r ↔
      ∃ (h : RecordHeader) (body : Bytes),
        bs = h.encode ++ body ∧ Layout a h.misc body r ∧ r.type = h.type := by
  rw [decodeReassembled, RecordHeader.decode_bind_eq_ok_iff]
  refine exists_congr fun h => exists_congr fun body => and_congr_right ?_
  rintro rfl
  rw [List.drop_left' h.length_encode, decodeBody_eq_ok_iff]

theorem decode_eq_ok_iff {a : Attr} {bs : Bytes} {r : Record} :
    decode a bs = .ok r ↔ ∃ (h : RecordHeader) (body : Bytes), bs = h.encode ++ body ∧
      h.size.toNat = bs.length ∧ Layout a h.misc body r ∧ r.type = h.type := by
  rw [decode, RecordHeader.decode_bind_eq_ok_iff]
  refine exists_congr fun h => exists_congr fun body => and_congr_right ?_
  rintro rfl
  rw [throwIf_bind_eq_ok_iff, not_ne_iff, List.drop_left' h.length_encode, decodeBody_eq_ok_iff]

/-! ### What is written, and what is read -/

theorem blob_encodeBlob {data : Bytes} {alignment : Nat} (hdata : data.length < UInt32.size)
    (h : 0 < alignment) : Format.blob alignment (encodeBlob data alignment) data := by
  refine ⟨hdata, List.replicate (alignUp data.length alignment - data.length) 0, ?_,
    List.length_replicate⟩
  rw [encodeBlob, Bytes.fixed_eq_append (le_alignUp _ _ h)]

/-- **The encoder writes the layout.** -/
theorem layout_body {a : Attr} {r : Record} (hr : r.WellFormed a) (hcounts : r.CountsFit) :
    Layout a r.misc r.body r := by
  obtain ⟨hshaped, hreads⟩ := hr
  cases r with
  | mmap r | mmap2 r | comm r =>
    exact ⟨⟨rfl, hshaped.2⟩, _, text_paddedText hshaped.1 (by decide), List.append_assoc _ _ _⟩
  | exit r | fork r | lost r | throttle r | unthrottle r => exact ⟨⟨rfl, hshaped⟩, rfl⟩
  | read r => exact ⟨⟨rfl, hreads, hshaped.1, hcounts, hshaped.2⟩, rfl⟩
  | sample r => exact ⟨⟨rfl, hshaped, hcounts⟩, rfl⟩
  | tracingData data | kernelSymbol data => exact blob_encodeBlob hshaped (by decide)
  | buildId r =>
    have hid : r.buildId.bytes.fixed 24 = r.buildId.bytes ++ List.replicate 4 0 := by
      have hlen := r.buildId.length_bytes
      rw [Bytes.fixed_eq_append (by omega), hlen]
    refine ⟨rfl, List.replicate 4 0, _, List.length_replicate,
      text_paddedText hshaped (by decide), ?_⟩
    simp only [body, hid, List.append_assoc]
  | dso r | symbol r => exact ⟨trivial, _, text_paddedText hshaped (by decide), by simp [body]⟩
  | split data => rfl
  | splitEnd => rfl
  | eventIds ids => exact ⟨hcounts, rfl⟩
  | unknown r => exact ⟨rfl, rfl, hshaped⟩

namespace Layout

variable {a : Attr} {misc : UInt16} {bs : Bytes} {r : Record}

theorem shaped (h : Layout a misc bs r) : r.Shaped a := by
  cases r with
  | mmap r | mmap2 r | comm r =>
    obtain ⟨⟨-, hs⟩, _, htext, -⟩ := h
    exact ⟨nul_not_mem_of_text htext, hs⟩
  | exit r | fork r | lost r | throttle r | unthrottle r => exact h.1.2
  | read r =>
    obtain ⟨⟨-, -, hv, -, hs⟩, -⟩ := h
    exact ⟨hv, hs⟩
  | sample r => exact h.1.2.1
  | tracingData data | kernelSymbol data => exact h.1
  | buildId r =>
    obtain ⟨-, _, _, -, htext, -⟩ := h
    exact nul_not_mem_of_text htext
  | dso r | symbol r =>
    obtain ⟨-, _, htext, -⟩ := h
    exact nul_not_mem_of_text htext
  | split data | splitEnd | eventIds ids => trivial
  | unknown r => exact h.2.2

theorem wellFormed (h : Layout a misc bs r) : r.WellFormed a := by
  refine ⟨h.shaped, ?_⟩
  cases r with
  | read r => exact h.1.2.1
  | _ => trivial

theorem countsFit (h : Layout a misc bs r) : r.CountsFit := by
  cases r with
  | read r => exact h.1.2.2.2.1
  | sample r => exact h.1.2.2
  | eventIds ids => exact h.1
  | _ => trivial

end Layout

end Record
end Profiler
