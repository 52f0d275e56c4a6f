/-
# The fields of every kind of record, read as they are written

Records without a name are read exactly as they are written. Where a record
has a name, more than one byte string stands for it: what follows the name up
to the alignment is passed over, and so is what follows a build id in its
field.

Key definitions: `Format.named`, `BuildIdRecord.layout`.
Key theorems: `TaskRecord.follows_parse`, `ReadRecord.follows_parse`,
`MmapRecord.follows_parse`, `BuildIdRecord.follows_parse`.
-/
import Profiler.Proofs.Record.Sample

namespace Profiler

open Format Parse

/-! ### Records without a name -/

theorem TaskRecord.follows_parse (a : Attr) (misc : UInt16) :
    Follows (TaskRecord.parse a misc)
      (written TaskRecord.encode fun r => r.misc = misc ∧ r.sampleId.WellFormed a) := by
  refine Follows.congr
    (Follows.field TaskRecord.pid (fun _ _ => rfl) follows_u32 fun _ =>
    Follows.field TaskRecord.ppid (fun _ _ => rfl) follows_u32 fun _ =>
    Follows.field TaskRecord.tid (fun _ _ => rfl) follows_u32 fun _ =>
    Follows.field TaskRecord.ptid (fun _ _ => rfl) follows_u32 fun _ =>
    Follows.field TaskRecord.time (fun _ _ => rfl) follows_u64 fun _ =>
    Follows.field TaskRecord.sampleId (fun _ _ => rfl) (SampleId.follows_parse a) fun _ =>
    Follows.built _) fun bs r => ?_
  simp only [nothing_eq_written, written_andThen_written, written, true_and, and_true,
    List.append_nil, TaskRecord.encode, List.append_assoc]
  constructor
  · rintro ⟨⟨hs, rfl⟩, hr⟩
    exact ⟨⟨congrArg TaskRecord.misc hr, hs⟩, rfl⟩
  · rintro ⟨⟨rfl, hs⟩, rfl⟩
    exact ⟨⟨hs, rfl⟩, rfl⟩

theorem LostRecord.follows_parse (a : Attr) (misc : UInt16) :
    Follows (LostRecord.parse a misc)
      (written LostRecord.encode fun r => r.misc = misc ∧ r.sampleId.WellFormed a) := by
  refine Follows.congr
    (Follows.field LostRecord.id (fun _ _ => rfl) follows_u64 fun _ =>
    Follows.field LostRecord.lost (fun _ _ => rfl) follows_u64 fun _ =>
    Follows.field LostRecord.sampleId (fun _ _ => rfl) (SampleId.follows_parse a) fun _ =>
    Follows.built _) fun bs r => ?_
  simp only [nothing_eq_written, written_andThen_written, written, true_and, and_true,
    List.append_nil, LostRecord.encode, List.append_assoc]
  constructor
  · rintro ⟨⟨hs, rfl⟩, hr⟩
    exact ⟨⟨congrArg LostRecord.misc hr, hs⟩, rfl⟩
  · rintro ⟨⟨rfl, hs⟩, rfl⟩
    exact ⟨⟨hs, rfl⟩, rfl⟩

theorem ThrottleRecord.follows_parse (a : Attr) (misc : UInt16) :
    Follows (ThrottleRecord.parse a misc)
      (written ThrottleRecord.encode fun r => r.misc = misc ∧ r.sampleId.WellFormed a) := by
  refine Follows.congr
    (Follows.field ThrottleRecord.time (fun _ _ => rfl) follows_u64 fun _ =>
    Follows.field ThrottleRecord.id (fun _ _ => rfl) follows_u64 fun _ =>
    Follows.field ThrottleRecord.streamId (fun _ _ => rfl) follows_u64 fun _ =>
    Follows.field ThrottleRecord.sampleId (fun _ _ => rfl) (SampleId.follows_parse a) fun _ =>
    Follows.built _) fun bs r => ?_
  simp only [nothing_eq_written, written_andThen_written, written, true_and, and_true,
    List.append_nil, ThrottleRecord.encode, List.append_assoc]
  constructor
  · rintro ⟨⟨hs, rfl⟩, hr⟩
    exact ⟨⟨congrArg ThrottleRecord.misc hr, hs⟩, rfl⟩
  · rintro ⟨⟨rfl, hs⟩, rfl⟩
    exact ⟨⟨hs, rfl⟩, rfl⟩

theorem ReadRecord.follows_parse (a : Attr) (misc : UInt16) :
    Follows (ReadRecord.parse a misc)
      (written ReadRecord.encode fun r => r.misc = misc ∧ r.readFormat = a.readFormat ∧
        r.values.WellFormed r.readFormat ∧ r.values.values.length < UInt64.size ∧
        r.sampleId.WellFormed a) := by
  refine Follows.congr
    (Follows.field ReadRecord.pid (fun _ _ => rfl) follows_u32 fun _ =>
    Follows.field ReadRecord.tid (fun _ _ => rfl) follows_u32 fun _ =>
    Follows.field ReadRecord.values (fun _ _ => rfl) (ReadValues.follows_parse a.readFormat) fun _ =>
    Follows.field ReadRecord.sampleId (fun _ _ => rfl) (SampleId.follows_parse a) fun _ =>
    Follows.built _) fun bs r => ?_
  simp only [nothing_eq_written, written_andThen_written, written, true_and, and_true,
    List.append_nil, ReadRecord.encode, List.append_assoc]
  constructor
  · rintro ⟨⟨⟨⟨hv, hcount⟩, hs⟩, rfl⟩, hr⟩
    have hformat : r.readFormat = a.readFormat := congrArg ReadRecord.readFormat hr
    rw [hformat]
    exact ⟨⟨congrArg ReadRecord.misc hr, rfl, hv, hcount, hs⟩, rfl⟩
  · rintro ⟨⟨rfl, hformat, hv, hcount, hs⟩, rfl⟩
    rw [← hformat]
    exact ⟨⟨⟨⟨hv, hcount⟩, hs⟩, rfl⟩, rfl⟩

/-! ### Records with a name -/

namespace Format

variable {α β : Type} {alignment : Nat} {head tail : α → Bytes} {name : α → String}
  {Valid : α → Prop}

/-- Fields, a name with its padding, and what follows it. -/
def named (alignment : Nat) (head : α → Bytes) (name : α → String) (tail : α → Bytes)
    (Valid : α → Prop) : Format α := fun bs r =>
  Valid r ∧ ∃ text, Format.text alignment text (name r) ∧ bs = head r ++ (text ++ tail r)

theorem text_andThen_written :
    (text alignment).andThen name (written tail Valid) =
      named alignment (fun _ => []) name tail Valid := by
  funext bs r
  refine propext ⟨?_, ?_⟩
  · rintro ⟨text, _, rfl, htext, hr, rfl⟩
    exact ⟨hr, text, htext, rfl⟩
  · rintro ⟨hr, text, htext, rfl⟩
    exact ⟨text, _, rfl, htext, hr, rfl⟩

theorem written_andThen_named {encode : β → Bytes} {Valid' : β → Prop} {part : α → β} :
    (written encode Valid').andThen part (named alignment head name tail Valid) =
      named alignment (fun r => encode (part r) ++ head r) name tail
        fun r => Valid' (part r) ∧ Valid r := by
  funext bs r
  refine propext ⟨?_, ?_⟩
  · rintro ⟨_, _, rfl, ⟨hpart, rfl⟩, hr, text, htext, rfl⟩
    exact ⟨⟨hpart, hr⟩, text, htext, (List.append_assoc _ _ _).symm⟩
  · rintro ⟨⟨hpart, hr⟩, text, htext, rfl⟩
    exact ⟨_, _, List.append_assoc _ _ _, ⟨hpart, rfl⟩, hr, text, htext, rfl⟩

end Format

theorem MmapRecord.follows_parse (a : Attr) (misc : UInt16) :
    Follows (MmapRecord.parse a misc)
      (named 8 MmapRecord.head MmapRecord.filename (fun r => r.sampleId.encode)
        fun r => r.misc = misc ∧ r.sampleId.WellFormed a) := by
  refine Follows.congr
    (Follows.field MmapRecord.pid (fun _ _ => rfl) follows_u32 fun _ =>
    Follows.field MmapRecord.tid (fun _ _ => rfl) follows_u32 fun _ =>
    Follows.field MmapRecord.addr (fun _ _ => rfl) follows_u64 fun _ =>
    Follows.field MmapRecord.len (fun _ _ => rfl) follows_u64 fun _ =>
    Follows.field MmapRecord.pgoff (fun _ _ => rfl) follows_u64 fun _ =>
    Follows.field MmapRecord.filename (fun _ _ => rfl) (follows_paddedText (by decide)) fun _ =>
    Follows.field MmapRecord.sampleId (fun _ _ => rfl) (SampleId.follows_parse a) fun _ =>
    Follows.built _) fun bs r => ?_
  simp only [nothing_eq_written, written_andThen_written, text_andThen_written,
    written_andThen_named, named, true_and, and_true, List.append_nil, MmapRecord.head,
    List.append_assoc]
  constructor
  · rintro ⟨⟨hs, text, htext, rfl⟩, hr⟩
    exact ⟨⟨congrArg MmapRecord.misc hr, hs⟩, text, htext, rfl⟩
  · rintro ⟨⟨rfl, hs⟩, text, htext, rfl⟩
    exact ⟨⟨hs, text, htext, rfl⟩, rfl⟩

theorem Mmap2Record.follows_parse (a : Attr) (misc : UInt16) :
    Follows (Mmap2Record.parse a misc)
      (named 8 Mmap2Record.head Mmap2Record.filename (fun r => r.sampleId.encode)
        fun r => r.misc = misc ∧ r.sampleId.WellFormed a) := by
  refine Follows.congr
    (Follows.field Mmap2Record.pid (fun _ _ => rfl) follows_u32 fun _ =>
    Follows.field Mmap2Record.tid (fun _ _ => rfl) follows_u32 fun _ =>
    Follows.field Mmap2Record.addr (fun _ _ => rfl) follows_u64 fun _ =>
    Follows.field Mmap2Record.len (fun _ _ => rfl) follows_u64 fun _ =>
    Follows.field Mmap2Record.pgoff (fun _ _ => rfl) follows_u64 fun _ =>
    Follows.field Mmap2Record.maj (fun _ _ => rfl) follows_u32 fun _ =>
    Follows.field Mmap2Record.min (fun _ _ => rfl) follows_u32 fun _ =>
    Follows.field Mmap2Record.ino (fun _ _ => rfl) follows_u64 fun _ =>
    Follows.field Mmap2Record.inoGeneration (fun _ _ => rfl) follows_u64 fun _ =>
    Follows.field Mmap2Record.prot (fun _ _ => rfl) follows_u32 fun _ =>
    Follows.field Mmap2Record.flags (fun _ _ => rfl) follows_u32 fun _ =>
    Follows.field Mmap2Record.filename (fun _ _ => rfl) (follows_paddedText (by decide)) fun _ =>
    Follows.field Mmap2Record.sampleId (fun _ _ => rfl) (SampleId.follows_parse a) fun _ =>
    Follows.built _) fun bs r => ?_
  simp only [nothing_eq_written, written_andThen_written, text_andThen_written,
    written_andThen_named, named, true_and, and_true, List.append_nil, Mmap2Record.head,
    List.append_assoc]
  constructor
  · rintro ⟨⟨hs, text, htext, rfl⟩, hr⟩
    exact ⟨⟨congrArg Mmap2Record.misc hr, hs⟩, text, htext, rfl⟩
  · rintro ⟨⟨rfl, hs⟩, text, htext, rfl⟩
    exact ⟨⟨hs, text, htext, rfl⟩, rfl⟩

theorem CommRecord.follows_parse (a : Attr) (misc : UInt16) :
    Follows (CommRecord.parse a misc)
      (named 8 CommRecord.head CommRecord.comm (fun r => r.sampleId.encode)
        fun r => r.misc = misc ∧ r.sampleId.WellFormed a) := by
  refine Follows.congr
    (Follows.field CommRecord.pid (fun _ _ => rfl) follows_u32 fun _ =>
    Follows.field CommRecord.tid (fun _ _ => rfl) follows_u32 fun _ =>
    Follows.field CommRecord.comm (fun _ _ => rfl) (follows_paddedText (by decide)) fun _ =>
    Follows.field CommRecord.sampleId (fun _ _ => rfl) (SampleId.follows_parse a) fun _ =>
    Follows.built _) fun bs r => ?_
  simp only [nothing_eq_written, written_andThen_written, text_andThen_written,
    written_andThen_named, named, true_and, and_true, List.append_nil, CommRecord.head,
    List.append_assoc]
  constructor
  · rintro ⟨⟨hs, text, htext, rfl⟩, hr⟩
    exact ⟨⟨congrArg CommRecord.misc hr, hs⟩, text, htext, rfl⟩
  · rintro ⟨⟨rfl, hs⟩, text, htext, rfl⟩
    exact ⟨⟨hs, text, htext, rfl⟩, rfl⟩

theorem DsoRecord.follows_parse :
    Follows DsoRecord.parse
      (named 8 DsoRecord.head DsoRecord.dsoName (fun _ => []) fun _ => True) := by
  refine Follows.congr
    (Follows.field DsoRecord.dsoType (fun _ _ => rfl) follows_u64 fun _ =>
    Follows.field DsoRecord.dsoId (fun _ _ => rfl) follows_u64 fun _ =>
    Follows.field DsoRecord.dsoName (fun _ _ => rfl) (follows_paddedText (by decide)) fun _ =>
    Follows.built _) fun bs r => ?_
  simp only [nothing_eq_written, text_andThen_written, written_andThen_named, named, true_and,
    and_true, List.append_nil, DsoRecord.head]

theorem SymbolRecord.follows_parse :
    Follows SymbolRecord.parse
      (named 8 SymbolRecord.head SymbolRecord.name (fun _ => []) fun _ => True) := by
  refine Follows.congr
    (Follows.field SymbolRecord.addr (fun _ _ => rfl) follows_u64 fun _ =>
    Follows.field SymbolRecord.len (fun _ _ => rfl) follows_u64 fun _ =>
    Follows.field SymbolRecord.dsoId (fun _ _ => rfl) follows_u64 fun _ =>
    Follows.field SymbolRecord.name (fun _ _ => rfl) (follows_paddedText (by decide)) fun _ =>
    Follows.built _) fun bs r => ?_
  simp only [nothing_eq_written, text_andThen_written, written_andThen_named, named, true_and,
    and_true, List.append_nil, SymbolRecord.head, List.append_assoc]

/-! ### Build ids -/

namespace BuildId

@[ext] theorem ext_bytes {b c : BuildId} (h : b.bytes = c.bytes) : b = c := by
  cases b
  cases c
  cases h
  rfl

theorem bytes_ofBytes (bs : Bytes) : (ofBytes bs).bytes = bs.fixed 20 := rfl

/-- A build id and the bytes that fill its field up to 24. -/
def padded : Format BuildId := fun bs b =>
  ∃ spare : Bytes, spare.length = 4 ∧ bs = b.bytes ++ spare

theorem padded_iff {bs : Bytes} {b : BuildId} :
    padded bs b ↔ bs.length = 24 ∧ b = ofBytes bs := by
  constructor
  · rintro ⟨spare, hspare, rfl⟩
    have hlen := b.length_bytes
    refine ⟨by rw [List.length_append, hlen, hspare], ext_bytes ?_⟩
    rw [bytes_ofBytes, Bytes.fixed_take (by simp [hlen]), List.take_left' hlen]
  · rintro ⟨hlen, rfl⟩
    refine ⟨bs.drop 20, by rw [List.length_drop, hlen], ?_⟩
    rw [bytes_ofBytes, Bytes.fixed_take (by omega), List.take_append_drop]

theorem follows_parse : Follows BuildId.parse padded := by
  refine ((follows_take 24).map ofBytes).congr fun bs b => ?_
  rw [padded_iff]
  constructor
  · rintro ⟨_, ⟨hlen, rfl⟩, rfl⟩
    exact ⟨hlen, rfl⟩
  · rintro ⟨hlen, rfl⟩
    exact ⟨bs, ⟨hlen, rfl⟩, rfl⟩

end BuildId

/-- The bytes of a build id record: neither the id nor the name fills its
field. -/
def BuildIdRecord.layout (misc : UInt16) : Format BuildIdRecord := fun bs r =>
  r.misc = misc ∧ ∃ spare text, spare.length = 4 ∧ Format.text 64 text r.filename ∧
    bs = Bytes.u32 r.pid ++ (r.buildId.bytes ++ (spare ++ text))

theorem BuildIdRecord.follows_parse (misc : UInt16) :
    Follows (BuildIdRecord.parse misc) (BuildIdRecord.layout misc) := by
  refine Follows.congr
    (Follows.field BuildIdRecord.pid (fun _ _ => rfl) follows_u32 fun _ =>
    Follows.field BuildIdRecord.buildId (fun _ _ => rfl) BuildId.follows_parse fun _ =>
    Follows.field BuildIdRecord.filename (fun _ _ => rfl) (follows_paddedText (by decide)) fun _ =>
    Follows.built _) fun bs r => ?_
  rw [nothing_eq_written, text_andThen_written]
  constructor
  · rintro ⟨⟨_, _, rfl, ⟨-, rfl⟩, _, _, rfl, ⟨spare, hspare, rfl⟩, -, text, htext, rfl⟩, hr⟩
    exact ⟨congrArg BuildIdRecord.misc hr, spare, text, hspare, htext, by simp⟩
  · rintro ⟨rfl, spare, text, hspare, htext, rfl⟩
    exact ⟨⟨_, _, rfl, ⟨trivial, rfl⟩, _, _, by simp, ⟨spare, hspare, rfl⟩, trivial, text, htext,
      rfl⟩, rfl⟩

end Profiler
