/-
# Bytes and little-endian words

All data the profiler reads and writes is a list of bytes. A word is stored
with its least significant byte first; `Bytes.ofNat` and `Bytes.toNat` are the
two directions of that rule and every word codec goes through them. Fields of
a fixed length are cut or padded with zeros, and lengths are rounded up to an
alignment.

Key definitions: `Bytes`, `Bytes.ofNat`, `Bytes.toNat`, `Bytes.fixed`,
`alignUp`.
Key theorems: `Bytes.length_ofNat`, `Bytes.length_fixed`.
-/
namespace Profiler

/-- A run of bytes: a file, a buffer, a field. -/
abbrev Bytes := List UInt8

/-- The least multiple of `alignment` that is not below `value`. No alignment
is 0: there is no such multiple then, and 0 stands for it. -/
def alignUp (value alignment : Nat) : Nat :=
  (value + (alignment - 1)) / alignment * alignment

theorem le_alignUp (value alignment : Nat) (h : 0 < alignment) :
    value ≤ alignUp value alignment := by
  unfold alignUp
  have hdiv := Nat.div_add_mod (value + (alignment - 1)) alignment
  have hmod := Nat.mod_lt (value + (alignment - 1)) h
  rw [Nat.mul_comm] at hdiv
  omega

namespace Bytes

/-- The low `width` bytes of a number, least significant first. -/
def ofNat : (width : Nat) → Nat → Bytes
  | 0, _ => []
  | width + 1, n => UInt8.ofNat n :: ofNat width (n / 256)

/-- The number whose bytes these are, least significant first. -/
def toNat : Bytes → Nat
  | [] => 0
  | b :: rest => b.toNat + 256 * toNat rest

@[simp] theorem length_ofNat (width n : Nat) : (ofNat width n).length = width := by
  induction width generalizing n with
  | zero => rfl
  | succ width ih => simp [ofNat, ih]

def u16 (v : UInt16) : Bytes := ofNat 2 v.toNat

def u32 (v : UInt32) : Bytes := ofNat 4 v.toNat

def u64 (v : UInt64) : Bytes := ofNat 8 v.toNat

def u64s (vs : List UInt64) : Bytes := vs.flatMap u64

/-- A field of exactly `length` bytes: cut, or padded with zeros. -/
def fixed (bs : Bytes) (length : Nat) : Bytes :=
  bs.take length ++ List.replicate (length - bs.length) 0

@[simp] theorem length_fixed (bs : Bytes) (length : Nat) : (fixed bs length).length = length := by
  simp only [fixed, List.length_append, List.length_take, List.length_replicate]
  omega

/-- The bytes with the two at `position` replaced by a 16-bit word. -/
def setU16 (bs : Bytes) (position : Nat) (v : UInt16) : Bytes :=
  bs.take position ++ u16 v ++ bs.drop (position + 2)

/-- The first `n` bytes and the rest, when there are that many. -/
def splitAt? (n : Nat) (bs : Bytes) : Option (Bytes × Bytes) :=
  if (bs.take n).length = n then some (bs.take n, bs.drop n) else none

theorem splitAt?_eq_some {n : Nat} {bs front rest : Bytes}
    (h : splitAt? n bs = some (front, rest)) :
    front = bs.take n ∧ rest = bs.drop n ∧ n ≤ bs.length := by
  unfold splitAt? at h
  split at h
  · next hlen =>
    simp only [Option.some.injEq, Prod.mk.injEq] at h
    rw [List.length_take] at hlen
    exact ⟨h.1.symm, h.2.symm, by omega⟩
  · simp at h

/-- The first `count` 64-bit words; bytes that are missing count as zero. -/
def words : (count : Nat) → Bytes → List UInt64
  | 0, _ => []
  | count + 1, bs => UInt64.ofNat (toNat (bs.take 8)) :: words count (bs.drop 8)

/-- Consecutive pieces of `size` bytes, the last one shorter when they do not
fit evenly. -/
def chunks (size : Nat) (bs : Bytes) : List Bytes :=
  if _h : size = 0 ∨ bs = [] then [] else bs.take size :: chunks size (bs.drop size)
termination_by bs.length
decreasing_by
  have hlen : 0 < bs.length := List.length_pos_iff.mpr (fun hb => _h (Or.inr hb))
  simp only [List.length_drop]
  omega

def hex (bs : Bytes) : String :=
  String.ofList (bs.flatMap fun b => [Nat.digitChar (b.toNat / 16), Nat.digitChar (b.toNat % 16)])

def hexValue? (c : Char) : Option Nat :=
  if '0' ≤ c ∧ c ≤ '9' then some (c.toNat - '0'.toNat)
  else if 'a' ≤ c ∧ c ≤ 'f' then some (c.toNat - 'a'.toNat + 10)
  else if 'A' ≤ c ∧ c ≤ 'F' then some (c.toNat - 'A'.toNat + 10)
  else none

/-- Whether a bit is set, counted from the lowest bit of the first byte. -/
def testBit (bs : Bytes) (bit : Nat) : Bool := (bs.getD (bit / 8) 0).toNat.testBit (bit % 8)

end Bytes

/-- The bytes up to the first one that is zero, and what follows it. -/
def Bytes.untilNul? (bs : Bytes) : Option (Bytes × Bytes) :=
  match bs.dropWhile (· != 0) with
  | [] => none
  | _ :: rest => some (bs.takeWhile (· != 0), rest)

end Profiler
