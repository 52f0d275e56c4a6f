/-
# Sets of characters

A set of characters is given by its borders: the code points, in ascending
order, at which runs of members begin and end in turn. A long row of borders
is written in parts.

Key definitions: `CharSet`, `CharSet.contains`.
-/
namespace Profiler

structure CharSet where
  borders : List (List Nat)

/-- A character is in a set if an odd number of borders lies at or below it. -/
def CharSet.contains (s : CharSet) (c : Char) : Bool :=
  s.borders.foldl (fun n part => n + part.countP (· ≤ c.toNat)) 0 % 2 == 1

end Profiler
