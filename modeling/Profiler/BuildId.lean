/-
# Build ids

The identity of a binary: 20 bytes, shorter ids padded with zeros.

Key definitions: `BuildId`, `BuildId.ofBytes`, `BuildId.ofHex?`,
`BuildId.text`.
-/
import Profiler.Text.Numeral

namespace Profiler

/-- The identity of a binary. -/
structure BuildId where
  bytes : Bytes
  length_bytes : bytes.length = 20
  deriving DecidableEq, Repr

namespace BuildId

/-- The first 20 bytes, padded with zeros. -/
def ofBytes (bs : Bytes) : BuildId := ⟨bs.fixed 20, Bytes.length_fixed bs 20⟩

instance : Inhabited BuildId := ⟨ofBytes []⟩

/-- The bytes named by pairs of digits. -/
def pairs? : List Char → Option Bytes
  | [] => some []
  | [_] => none
  | a :: b :: rest => do
    let v ← Numeral.unsigned? 16 256 [a, b]
    let vs ← pairs? rest
    return UInt8.ofNat v :: vs

/-- At most 20 pairs of digits, with or without `0x`. -/
def ofHex? (s : String) : Option BuildId :=
  let digits := match s.toList with
    | '0' :: 'x' :: rest => rest
    | cs => cs
  if digits.length > 40 then none else (pairs? digits).map ofBytes

/-- Whether the id is all zeros, as for a binary without one. -/
def isEmpty (b : BuildId) : Bool := b.bytes.all (· == 0)

def text (b : BuildId) : String := "0x" ++ b.bytes.hex

end BuildId
end Profiler
