/-
# Mappings of a process

A line of `/proc/<pid>/maps` describes a stretch of a process's address
space: `start-end perms offset dev inode path`. The path is free text and
missing for anonymous memory.

Key definitions: `Mapping`, `Mapping.ofLine?`.
-/
import Profiler.Text.Blank
import Profiler.Text.Numeral

namespace Profiler

/-- A stretch of address space and the file behind it. -/
structure Mapping where
  start : UInt64
  stop : UInt64
  perms : String
  offset : UInt64
  path : Option String
  deriving DecidableEq, Repr

namespace Mapping

def isExecutable (m : Mapping) : Bool := m.perms.contains 'x'

/-- The mapping that a line describes. Runs of white space in the path become
one blank. -/
def ofLine? (line : String) : Option Mapping :=
  match Text.words line with
  | range :: perms :: offset :: _ :: _ :: path => do
    let (start, stop) ← Text.splitFirst? '-' range.toList
    return {
      start := ← Numeral.hex64? (String.ofList start)
      stop := ← Numeral.hex64? (String.ofList stop)
      perms
      offset := ← Numeral.hex64? offset
      path := if path.isEmpty then none else some (" ".intercalate path) }
  | _ => none

end Mapping
end Profiler
