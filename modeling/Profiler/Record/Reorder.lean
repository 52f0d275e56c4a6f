/-
# Putting records back into time order

Records come from one buffer per cpu, each in its own order. A `Reorder` holds
records back until enough of them are there and the earliest is older than the
newest by a set difference, and then lets the earliest go. Records of one time
go in the order samples last, and else in the order they came.

Key definitions: `Reorder`, `Reorder.push`, `Reorder.pop`, `Reorder.popAll`,
`Reorder.popReady`.
-/
import Profiler.Record.Basic

namespace Profiler

/-- What decides the order of two records. -/
structure ReorderKey where
  time : UInt64
  isSample : Bool
  /-- The number of records that came before. -/
  arrival : Nat
  deriving DecidableEq, Repr

/-- Whether a key goes before another: by time, then samples last, then by
arrival. -/
def ReorderKey.before (a b : ReorderKey) : Bool :=
  a.time < b.time ||
    (a.time == b.time &&
      ((!a.isSample && b.isSample) || (a.isSample == b.isSample && a.arrival < b.arrival)))

/-- A record with its key. -/
structure HeldRecord where
  key : ReorderKey
  record : Record
  deriving DecidableEq, Repr

/-- Records held back, and when they may go. -/
structure Reorder where
  /-- Whether records carry a time at all. -/
  hasTimestamp : Bool
  /-- How many records must be held for one to go. -/
  minSize : Nat
  /-- How much older than the newest the earliest must be. -/
  minDifference : UInt64
  /-- The greatest time seen. -/
  newest : UInt64 := 0
  /-- How many records have come. A word would count 2^64 of them, which are out
  of reach. -/
  arrivals : Nat := 0
  /-- The records held, earliest first. -/
  held : List HeldRecord := []
  deriving Repr

namespace Reorder

/-- The thresholds used for reading files: a thousand records, a millisecond. -/
def standard (hasTimestamp : Bool) : Reorder :=
  { hasTimestamp, minSize := 1000, minDifference := 1000000 }

def insert (e : HeldRecord) : List HeldRecord → List HeldRecord
  | [] => [e]
  | x :: rest => if e.key.before x.key then e :: x :: rest else x :: insert e rest

def push (q : Reorder) (r : Record) : Reorder :=
  let time := r.timestamp
  let entry : HeldRecord := ⟨⟨time, r.isSample, q.arrivals⟩, r⟩
  { q with
    newest := if q.hasTimestamp && q.newest < time then time else q.newest
    arrivals := q.arrivals + 1
    held := insert entry q.held }

/-- Whether a record of this time may go: its time plus the difference, which
stops at the greatest word, is not beyond the newest. -/
def isDue (q : Reorder) (time : UInt64) : Bool :=
  !q.hasTimestamp || min (time.toNat + q.minDifference.toNat) (UInt64.size - 1) ≤ q.newest.toNat

/-- The earliest record, if it may go, and what is held then. -/
def pop (q : Reorder) : Option (Record × Reorder) :=
  if q.held.length < q.minSize then none
  else
    match q.held with
    | [] => none
    | e :: rest => if q.isDue e.key.time then some (e.record, { q with held := rest }) else none

def popAll (q : Reorder) : List Record × Reorder :=
  (q.held.map HeldRecord.record, { q with held := [] })

/-- Every record that may go now, in order. -/
def popReady (q : Reorder) : List Record × Reorder :=
  match _h : q.pop with
  | none => ([], q)
  | some (r, q') =>
    let (rest, last) := popReady q'
    (r :: rest, last)
termination_by q.held.length
decreasing_by
  unfold pop at _h
  split at _h
  · simp at _h
  · split at _h
    · simp at _h
    · next e rest heq =>
      split at _h
      · simp only [Option.some.injEq, Prod.mk.injEq] at _h
        simp [heq, ← _h.2]
      · simp at _h

end Reorder
end Profiler
