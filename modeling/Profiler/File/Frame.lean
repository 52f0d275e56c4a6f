/-
# The data section cut into records

The data section is a run of records. Before any of them is decoded it is cut
at the lengths in their headers, and the pieces of split records are joined;
neither needs to know an attr. A `Frame` is what is then decoded as one
record. Where the section cannot be cut further, the frames before that place
still count.

Key definitions: `Frame`, `cutRecords`, `joinPieces`, `Frame.ofData`.
-/
import Profiler.Record.Decode

namespace Profiler

/-- The bytes of one record. -/
inductive Frame where
  /-- A record that was stored in one piece. -/
  | whole (bs : Bytes)
  /-- The joined contents of a run of pieces. -/
  | joined (bs : Bytes)
  deriving DecidableEq, Repr

/-- A record as it stands in the data section. -/
structure RawRecord where
  header : RecordHeader
  bytes : Bytes
  deriving DecidableEq, Repr

/-- Values read before some fault, and the fault if there was one. -/
structure UpTo (α : Type) where
  values : List α
  fault? : Option Corruption
  deriving Repr

def UpTo.cons (a : α) (u : UpTo α) : UpTo α := { u with values := a :: u.values }

/-- Cut a run of records at the lengths that their headers give. `misfit` is
the fault of a record that does not fit at a position. -/
def cutRecords (misfit : RecordHeader → (position : Nat) → Corruption) (position : Nat)
    (bs : Bytes) : UpTo RawRecord :=
  if _h : bs = [] then ⟨[], none⟩
  else
    match RecordHeader.decode bs with
    | .error e => ⟨[], some e⟩
    | .ok h =>
      let n := h.size.toNat
      match _hsplit : bs.splitAt? n with
      | none => ⟨[], some (misfit h position)⟩
      | some (front, rest) =>
        if _hsize : n < recordHeaderSize then ⟨[], some (misfit h position)⟩
        else (cutRecords misfit (position + n) rest).cons ⟨h, front⟩
termination_by bs.length
decreasing_by
  have hparts := Bytes.splitAt?_eq_some _hsplit
  have _hpos : 0 < bs.length := List.length_pos_iff.mpr _h
  have hlen : rest.length = bs.length - n := by rw [hparts.2.1, List.length_drop]
  simp only [recordHeaderSize, Nat.not_lt] at _hsize
  omega

/-- Join runs of pieces. `open?` holds the contents of a run that has begun.
A run that the section does not end is a fault of its own, unless the cutting
had one. -/
def joinPieces (fault? : Option Corruption) : (open? : Option Bytes) → List RawRecord → UpTo Frame
  | none, [] => ⟨[], fault?⟩
  | some _, [] => ⟨[], some (fault?.getD (.shortRead 4 0 0))⟩
  | none, r :: rest =>
    if r.header.type = RecordKind.split.code then
      joinPieces fault? (some (r.bytes.drop recordHeaderSize)) rest
    else (joinPieces fault? none rest).cons (.whole r.bytes)
  | some run, r :: rest =>
    if r.header.type = RecordKind.split.code then
      joinPieces fault? (some (run ++ r.bytes.drop recordHeaderSize)) rest
    else if r.header.type = RecordKind.splitEnd.code then
      (joinPieces fault? none rest).cons (.joined run)
    else ⟨[], some (.splitRun r.header.type.toNat)⟩

def Frame.ofData (data : Bytes) : UpTo Frame :=
  let misfit := fun (h : RecordHeader) position =>
    Corruption.recordOutside h.size.toNat position data.length
  let cut := cutRecords misfit 0 data
  joinPieces cut.fault? none cut.values

end Profiler
