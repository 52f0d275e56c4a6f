/-
# Event ids in encoded records

With several events in one stream, the id in a record tells whose it is, and
with it which attr decodes it; so the id must be found before the record is
decoded. That is possible when all attrs keep it at one place: counted from
the start in samples, and from the end in other records.

Key definitions: `SampleMask.idOffset`, `SampleMask.idOffsetFromEnd`,
`commonIdPositions`, `peekEventId`.
-/
import Profiler.Record.Decode

namespace Profiler

/-- How many of the given fields a set holds. -/
def SampleMask.count (m : SampleMask) (fs : List SampleField) : Nat := fs.countP m.has

/-- Where the id is in a sample, counted from its first byte. -/
def SampleMask.idOffset (m : SampleMask) : Option Nat :=
  if m.has .identifier then some recordHeaderSize
  else if m.has .id then some (recordHeaderSize + 8 * m.count [.ip, .tid, .time, .addr])
  else none

/-- Where the id is in another record, counted back from its end. -/
def SampleMask.idOffsetFromEnd (m : SampleMask) : Option Nat :=
  if m.has .identifier then some 8
  else if m.has .id then some (8 + 8 * m.count [.streamId, .cpu])
  else none

/-- Where the id is: from the start in samples, from the end elsewhere. -/
structure IdPositions where
  inSample : Nat
  fromEnd : Nat
  deriving DecidableEq, Repr

/-- The positions under one sample type. -/
def SampleMask.idPositions? (m : SampleMask) : Option IdPositions := do
  return { inSample := ← m.idOffset, fromEnd := ← m.idOffsetFromEnd }

/-- The positions that all attrs have, given the ones agreed on so far. -/
def agreeOnIdPositions : Option IdPositions → List Attr → Except Misuse IdPositions
  | some common, [] => .ok common
  | none, [] => .error .noEvents
  | common?, a :: rest =>
    match a.sampleType.idPositions? with
    | none => .error .idsMissing
    | some p =>
      match common? with
      | none => agreeOnIdPositions (some p) rest
      | some common =>
        if common = p then agreeOnIdPositions (some common) rest else .error .idPositions

/-- The positions that all attrs have. -/
def commonIdPositions (attrs : List Attr) : Except Misuse IdPositions :=
  agreeOnIdPositions none attrs

/-- The id in an encoded record. Records that the kernel never makes have none. -/
def peekEventId (positions : IdPositions) (bs : Bytes) : Option UInt64 :=
  match RecordHeader.decode bs with
  | .error _ => none
  | .ok h =>
    if firstUserDefinedType ≤ h.type then none
    else
      let offset? : Option Nat :=
        if h.type = RecordKind.sample.code then some positions.inSample
        else if positions.fromEnd ≤ bs.length then some (bs.length - positions.fromEnd)
        else none
      match offset? with
      | none => none
      | some offset =>
        if offset < recordHeaderSize then none
        else (Bytes.splitAt? 8 (bs.drop offset)).map fun p => UInt64.ofNat p.1.toNat

end Profiler
