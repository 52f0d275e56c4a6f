/-
# Stored records are cut where they were joined

Records are stored one after another; one that is too long for its header is
stored as pieces, which are records too, and an end mark (`Record.pieces`). The
header of every stored record gives its length, so a data section is cut into
exactly the records that were stored (`cutRecords_flatMap`). Pieces are joined
again up to their end mark, and so every record is one frame, wherever it
stands and whatever follows it (`joinPieces_pieces`).

Key definitions: `RawRecord.Sized`, `Record.pieces`, `Record.stored`,
`Record.frame`.
Key theorems: `Record.splitForFile_eq`, `Record.length_le_of_mem_pieces`,
`Frame.ofData_splitForFile`.
-/
import Profiler.File.Frame
import Profiler.Proofs.Record.RoundTrip

namespace Profiler

/-! ### Cutting at the lengths -/

/-- The header is the one at the start, and it gives the length. -/
structure RawRecord.Sized (r : RawRecord) : Prop where
  decodes : RecordHeader.decode r.bytes = .ok r.header
  size : r.header.size.toNat = r.bytes.length

theorem cutRecords_append {misfit : RecordHeader → Nat → Corruption} {r : RawRecord} (hr : r.Sized)
    (position : Nat) (rest : Bytes) : cutRecords misfit position (r.bytes ++ rest) =
      (cutRecords misfit (position + r.header.size.toNat) rest).cons r := by
  obtain ⟨body, hbytes⟩ := RecordHeader.decode_eq_ok_iff.mp hr.decodes
  have hlen : r.bytes.length = recordHeaderSize + body.length := by
    rw [hbytes, List.length_append, RecordHeader.length_encode]
  have hdecode : RecordHeader.decode (r.bytes ++ rest) = .ok r.header :=
    RecordHeader.decode_eq_ok_iff.mpr ⟨body ++ rest, by rw [hbytes, List.append_assoc]⟩
  have hsplit := Bytes.splitAt?_append rest hr.size.symm
  have hsize : ¬ r.header.size.toNat < recordHeaderSize := by
    rw [hr.size, hlen]
    omega
  have hne : r.bytes ++ rest ≠ [] := by
    intro hnil
    rw [hnil] at hdecode
    cases hdecode
  rw [cutRecords, dif_neg hne]
  split
  · next e herror =>
    rw [hdecode] at herror
    cases herror
  · next h hok =>
    rw [hdecode] at hok
    cases hok
    dsimp only
    split
    · next hnone =>
      rw [hsplit] at hnone
      cases hnone
    · next front tail hsome =>
      rw [hsplit] at hsome
      cases hsome
      rw [dif_neg hsize]

/-- **A run of records is cut into the records that it was put together from.** -/
theorem cutRecords_flatMap {misfit : RecordHeader → Nat → Corruption} (raws : List RawRecord)
    (position : Nat) (hraws : ∀ r ∈ raws, r.Sized) :
    cutRecords misfit position (raws.flatMap RawRecord.bytes) = ⟨raws, none⟩ := by
  induction raws generalizing position with
  | nil => rw [List.flatMap_nil, cutRecords, dif_pos rfl]
  | cons r raws ih =>
    rw [List.flatMap_cons, cutRecords_append (hraws r List.mem_cons_self),
      ih _ fun s hs => hraws s (List.mem_cons_of_mem r hs)]
    rfl

/-! ### The pieces of a record -/

namespace Record

/-- The records that a record is stored as: itself, or pieces and the end mark. -/
def pieces (r : Record) : List Record :=
  if r.encode.length ≤ maxRecordSize then [r]
  else (r.encode.chunks pieceSize).map split ++ [splitEnd]

/-- A record as it stands in a data section. -/
def stored (r : Record) : RawRecord := ⟨r.header, r.encode⟩

/-- What is decoded as the record. -/
def frame (r : Record) : Frame :=
  if r.encode.length ≤ maxRecordSize then .whole r.encode else .joined r.encode

theorem splitForFile_eq (r : Record) : r.splitForFile = r.pieces.map encode := by
  unfold splitForFile pieces
  split
  · next h => rw [if_pos h, List.map_singleton]
  · next h => rw [if_neg h, List.map_append, List.map_map, List.map_singleton]; rfl

theorem length_encode_split (data : Bytes) :
    (split data).encode.length = recordHeaderSize + data.length := length_encode _

theorem length_le_of_mem_pieces {r piece : Record} (h : piece ∈ r.pieces) :
    piece.encode.length ≤ maxRecordSize := by
  unfold pieces at h
  split at h
  · next hfits => rwa [List.mem_singleton.mp h]
  · rw [List.mem_append, List.mem_map, List.mem_singleton] at h
    rcases h with ⟨chunk, hchunk, rfl⟩ | rfl
    · have hlen := Bytes.length_le_of_mem_chunks hchunk
      rw [length_encode_split]
      simp only [recordHeaderSize, maxRecordSize, pieceSize] at hlen ⊢
      omega
    · decide

/-- **Every stored piece fits its header.** -/
theorem length_le_of_mem_splitForFile {r : Record} {piece : Bytes} (h : piece ∈ r.splitForFile) :
    piece.length ≤ maxRecordSize := by
  rw [splitForFile_eq, List.mem_map] at h
  obtain ⟨p, hp, rfl⟩ := h
  exact length_le_of_mem_pieces hp

theorem length_flatten_le_split (chunks : List Bytes) :
    chunks.flatten.length ≤ (chunks.map fun c => (split c).encode).flatten.length := by
  induction chunks with
  | nil => exact Nat.le_refl 0
  | cons c chunks ih =>
    rw [List.map_cons, List.flatten_cons, List.flatten_cons, List.length_append,
      List.length_append, length_encode_split]
    omega

/-- Storing a record takes at least the bytes of its encoding. -/
theorem length_encode_le_splitForFile (r : Record) :
    r.encode.length ≤ r.splitForFile.flatten.length := by
  unfold splitForFile
  dsimp only
  split
  · rw [List.flatten_singleton]
  · have hchunks := length_flatten_le_split (r.encode.chunks pieceSize)
    rw [Bytes.flatten_chunks (by decide)] at hchunks
    rw [List.flatten_append, List.length_append]
    exact Nat.le_add_right_of_le hchunks

theorem stored_sized {r : Record} (h : r.encode.length ≤ maxRecordSize) : r.stored.Sized where
  decodes := RecordHeader.decode_eq_ok_iff.mpr ⟨r.body, encode_eq r⟩
  size := header_size h

end Record

/-! ### Joining the pieces -/

open Record

theorem drop_stored_split (data : Bytes) :
    (split data).stored.bytes.drop recordHeaderSize = data := by
  rw [stored, encode_eq]
  exact List.drop_left' (RecordHeader.length_encode _)

theorem joinPieces_run (fault? : Option Corruption) (chunks : List Bytes) (run : Bytes)
    (rest : List RawRecord) :
    joinPieces fault? (some run) ((chunks.map split).map stored ++ splitEnd.stored :: rest) =
      (joinPieces fault? none rest).cons (.joined (run ++ chunks.flatten)) := by
  induction chunks generalizing run with
  | nil =>
    have hother : splitEnd.stored.header.type ≠ RecordKind.split.code := by decide
    have hend : splitEnd.stored.header.type = RecordKind.splitEnd.code := rfl
    rw [List.map_nil, List.map_nil, List.nil_append, joinPieces, if_neg hother, if_pos hend,
      List.flatten_nil, List.append_nil]
  | cons c chunks ih =>
    have htype : (split c).stored.header.type = RecordKind.split.code := rfl
    rw [List.map_cons, List.map_cons, List.cons_append, joinPieces, if_pos htype,
      drop_stored_split, ih, List.flatten_cons, List.append_assoc]

/-- **The pieces of a record make one frame,** whatever follows them. -/
theorem joinPieces_pieces {r : Record} (hr : r.type ≠ RecordKind.split.code)
    (fault? : Option Corruption) (rest : List RawRecord) :
    joinPieces fault? none (r.pieces.map stored ++ rest) =
      (joinPieces fault? none rest).cons r.frame := by
  unfold pieces frame
  split
  · have htype : r.stored.header.type ≠ RecordKind.split.code := hr
    rw [List.map_singleton, List.singleton_append, joinPieces, if_neg htype]
    rfl
  · next hlong =>
    have hne : r.encode ≠ [] := by
      intro hnil
      rw [hnil] at hlong
      exact hlong (Nat.zero_le _)
    cases hchunks : r.encode.chunks pieceSize with
    | nil => exact (Bytes.chunks_ne_nil (by decide) hne hchunks).elim
    | cons c chunks =>
      have htype : (split c).stored.header.type = RecordKind.split.code := rfl
      have hjoined : c ++ chunks.flatten = r.encode := by
        rw [← List.flatten_cons, ← hchunks, Bytes.flatten_chunks (by decide)]
      rw [List.map_append, List.append_assoc, List.map_cons, List.map_cons, List.cons_append,
        joinPieces, if_pos htype, drop_stored_split, List.map_singleton, List.singleton_append,
        joinPieces_run, hjoined]

theorem joinPieces_flatMap_pieces {rs : List Record}
    (hrs : ∀ r ∈ rs, r.type ≠ RecordKind.split.code) :
    joinPieces none none (rs.flatMap fun r => r.pieces.map stored) = ⟨rs.map frame, none⟩ := by
  induction rs with
  | nil => rfl
  | cons r rs ih =>
    rw [List.flatMap_cons, joinPieces_pieces (hrs r List.mem_cons_self),
      ih fun s hs => hrs s (List.mem_cons_of_mem r hs)]
    rfl

/-- **A data section gives the records that were stored in it.** -/
theorem Frame.ofData_splitForFile {rs : List Record}
    (hrs : ∀ r ∈ rs, r.type ≠ RecordKind.split.code) :
    Frame.ofData (rs.flatMap fun r => r.splitForFile.flatten) = ⟨rs.map frame, none⟩ := by
  have hdata : (rs.flatMap fun r => r.splitForFile.flatten) =
      (rs.flatMap fun r => r.pieces.map stored).flatMap RawRecord.bytes := by
    rw [List.flatMap_assoc]
    refine congrArg (fun f => rs.flatMap f) (funext fun r => ?_)
    rw [splitForFile_eq, List.flatMap_def, List.map_map]
    rfl
  have hsized : ∀ raw ∈ rs.flatMap fun r => r.pieces.map stored, raw.Sized := by
    intro raw hraw
    obtain ⟨r, -, hraw⟩ := List.mem_flatMap.mp hraw
    obtain ⟨piece, hpiece, rfl⟩ := List.mem_map.mp hraw
    exact stored_sized (length_le_of_mem_pieces hpiece)
  rw [hdata, Frame.ofData]
  simp only [cutRecords_flatMap _ _ hsized, joinPieces_flatMap_pieces hrs]

end Profiler
