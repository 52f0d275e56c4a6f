/-
# Numerals

Unsigned and signed numerals as the kernel and the command line write them: a
radix, an optional sign, at least one digit, and a bound that the value must
keep.

Key definitions: `Numeral.digits?`, `Numeral.unsigned?`, `Numeral.signed?`,
`hex0x`.
-/
import Profiler.Error
import Profiler.Bytes

namespace Profiler
namespace Numeral

def digit? (radix : Nat) (c : Char) : Option Nat :=
  match Bytes.hexValue? c with
  | some v => if v < radix then some v else none
  | none => none

def digits? (radix : Nat) (cs : List Char) : Option Nat :=
  cs.foldlM (fun acc c => (digit? radix c).map (acc * radix + ·)) 0

/-- A numeral below `bound`: one `+` may stand before the digits. -/
def unsigned? (radix bound : Nat) (cs : List Char) : Option Nat :=
  let body := match cs with
    | '+' :: rest => rest
    | _ => cs
  if body.isEmpty then none
  else
    match digits? radix body with
    | some v => if v < bound then some v else none
    | none => none

/-- A numeral between `-bound` and `bound - 1`: a sign may stand first. -/
def signed? (radix bound : Nat) (cs : List Char) : Option Int :=
  match cs with
  | '-' :: rest =>
    if rest.isEmpty then none
    else
      match digits? radix rest with
      | some v => if v ≤ bound then some (-(v : Int)) else none
      | none => none
  | _ => (unsigned? radix bound cs).map Int.ofNat

def u32? (s : String) : Option UInt32 := (unsigned? 10 UInt32.size s.toList).map UInt32.ofNat

def u64? (s : String) : Option UInt64 := (unsigned? 10 UInt64.size s.toList).map UInt64.ofNat

def hex64? (s : String) : Option UInt64 := (unsigned? 16 UInt64.size s.toList).map UInt64.ofNat

end Numeral

def hex0x (v : UInt64) : String := "0x" ++ hexDigits v.toNat

end Profiler
