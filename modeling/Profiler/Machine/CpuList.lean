/-
# Lists of cpus

The kernel writes a set of cpus as numbers and ranges separated by commas,
such as `0-3,5,7-8`. Reading one gives its cpus in ascending order, each once.

Key definitions: `CpuList.item?`, `CpuList.parse`.
-/
import Profiler.Error
import Profiler.Text.Blank
import Profiler.Text.Numeral

namespace Profiler
namespace CpuList

/-- A cpu number, which fits 32 bits. -/
def number? (cs : List Char) : Option Nat := Numeral.unsigned? 10 UInt32.size (Text.trimChars cs)

/-- The cpus of one item. `whole` is the list it stands in. -/
def item (whole : String) (cs : List Char) : Except Misuse (List Nat) :=
  match Text.splitFirst? '-' cs with
  | none => match number? cs with
    | some cpu => .ok [cpu]
    | none => .error (.cpuList whole)
  | some (first, last) => match number? first, number? last with
    | some lo, some hi =>
      if lo ≤ hi then .ok (List.range' lo (hi + 1 - lo)) else .error (.cpuRange (String.ofList cs))
    | _, _ => .error (.cpuList whole)

def normalize (cpus : List Nat) : List Nat := (cpus.mergeSort (· ≤ ·)).eraseReps

/-- Items that are empty do not count. -/
def parse (s : String) : Except Misuse (List Nat) := do
  let whole := Text.trimChars s.toList
  let items := (splitWhere (· == ',') whole).filter fun cs => !cs.isEmpty
  return normalize (← items.mapM (item (String.ofList whole))).flatten

end CpuList
end Profiler
