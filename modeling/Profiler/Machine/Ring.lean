/-
# Ring buffers

The kernel writes records into a data area of fixed size, at positions that
only grow and whose place in the area is the position modulo its size. It says
how far it has written; the reader says how far it has read, which hands the
space back.

Key definitions: `Ring`, `Ring.byteAt`, `Ring.publish`, `Ring.read`.
-/
import Profiler.Bytes
import Profiler.Error

namespace Profiler

/-- Bytes that were written from a position on. -/
structure RingWrite where
  position : Nat
  bytes : Array UInt8
  deriving DecidableEq, Repr, Inhabited

/-- What a write left at a place of the data area. Of the bytes that went to
the same place the last one stays. -/
def RingWrite.at? (w : RingWrite) (size place : Nat) : Option UInt8 :=
  let k := (place + size - w.position % size) % size
  if k < w.bytes.size then w.bytes[k + size * ((w.bytes.size - 1 - k) / size)]? else none

/-- A buffer that the kernel fills and a reader empties. -/
structure Ring where
  /-- The bytes of the data area. -/
  size : Nat
  /-- The writes, the last one first. What none of them reached is zero. -/
  writes : List RingWrite := []
  /-- The position up to which the kernel says it has written. -/
  head : UInt64 := 0
  /-- The position up to which the reader has read. -/
  tail : UInt64 := 0
  deriving DecidableEq, Repr, Inhabited

namespace Ring

def byteAt (r : Ring) (place : Nat) : UInt8 :=
  (r.writes.findSome? (·.at? r.size place)).getD 0

/-- The kernel writes bytes at the head and moves it behind them, and by
`excess` more than it should. -/
def publish (r : Ring) (bs : Bytes) (excess : UInt64) : Ring :=
  { r with
    writes := ⟨r.head.toNat, bs.toArray⟩ :: r.writes
    head := r.head + UInt64.ofNat bs.length + excess }

/-- How many bytes are there to read, if the kernel is to be believed. -/
def available (r : Ring) : Nat := (r.head - r.tail).toNat

/-- Read what is there and hand the space back. A kernel that says to have
written more than the data area holds is not believed. -/
def read (r : Ring) : Except Corruption (Bytes × Ring) :=
  if r.size < r.available then .error (.ringOverrun r.available r.size)
  else
    .ok ((List.range r.available).map fun i => r.byteAt ((r.tail.toNat + i) % r.size),
      { r with tail := r.head })

end Ring

/-- What a buffer holds when it is mapped. -/
structure RingContent where
  data : Bytes
  tail : UInt64
  /-- The head, if it is not right behind the data. -/
  head? : Option UInt64 := none
  deriving DecidableEq, Repr, Inhabited

/-- A buffer of a size with such a content. -/
def RingContent.ring (c : RingContent) (size : Nat) : Ring :=
  let r := { size, head := c.tail, tail := c.tail : Ring }.publish c.data 0
  { r with head := c.head?.getD r.head }

end Profiler
