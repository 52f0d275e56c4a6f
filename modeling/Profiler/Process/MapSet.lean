/-
# Maps of an address space

A map is a stretch of an address space that a file was mapped to. The live
maps of one owner do not overlap: a new map cuts the older ones down to what
it does not cover. The stretch of a map whose length leads beyond the greatest
address ends there.

Key definitions: `MapEntry`, `MapEntry.fileOffset`, `MapSet`, `MapSet.find?`,
`MapSet.clear`, `MapSet.insert`.
-/
namespace Profiler

/-- The number of a process or thread, as the records carry it. -/
abbrev Pid := Int32

/-- The owner of the kernel's maps. -/
def kernelPid : Pid := -1

/-- A stretch of address space and the file that it shows. -/
structure MapEntry where
  /-- The owning process, or `kernelPid`. -/
  pid : Pid
  start : UInt64
  len : UInt64
  /-- Where in the file the map begins. -/
  pgoff : UInt64
  /-- When it was mapped. -/
  time : UInt64
  filename : String
  deriving DecidableEq, Repr, Inhabited

/-- A sum that stays at the greatest word when it would pass it. -/
def saturatingAdd (a b : UInt64) : UInt64 := if a + b < a then 0xffffffffffffffff else a + b

namespace MapEntry

def stop (m : MapEntry) : UInt64 := saturatingAdd m.start m.len

def contains (m : MapEntry) (addr : UInt64) : Bool := m.start ≤ addr && addr < m.stop

def inKernel (m : MapEntry) : Bool := m.pid == kernelPid

def fileOffset (m : MapEntry) (addr : UInt64) : UInt64 := addr - m.start + m.pgoff

def before (m : MapEntry) (addr : UInt64) : MapEntry := { m with len := addr - m.start }

/-- The part of the map from an address on, which shows a later part of the
file. -/
def since (m : MapEntry) (addr : UInt64) : MapEntry :=
  { m with start := addr, len := m.stop - addr, pgoff := m.pgoff + (addr - m.start) }

/-- What is left of a map that meets the stretch from `start` to `stop`. -/
def cut (m : MapEntry) (start stop : UInt64) : List MapEntry :=
  (if m.start < start then [m.before start] else []) ++
    (if stop < m.stop then [m.since stop] else [])

/-- The file name of the map that stands for addresses outside all maps. -/
def unknownName : String := "unknown"

/-- The map of a process for addresses outside its maps. -/
def unknown (pid : Pid) : MapEntry := ⟨pid, 0, 0xffffffffffffffff, 0, 0, unknownName⟩

def isUnknown (m : MapEntry) : Bool :=
  m.start == 0 && m.len == 0xffffffffffffffff && m.filename == unknownName

/-- The name of the map of the kernel's own code. -/
def kernelImageName : String := "[kernel.kallsyms]"

/-- Whether a kernel map shows the kernel's own code and not a module. -/
def isKernelImage (filename : String) : Bool := filename.startsWith kernelImageName

end MapEntry

/-- The live maps of an owner, by ascending start. -/
abbrev MapSet := List MapEntry

namespace MapSet

/-- The map that an address lies in: the last one that starts at or below it,
if it reaches that far. -/
def find? (s : MapSet) (addr : UInt64) : Option MapEntry :=
  ((s.takeWhile fun m => m.start ≤ addr).getLast?).filter (·.contains addr)

/-- Put a map in its place, or in the place of one with the same start. -/
def place (m : MapEntry) : MapSet → MapSet
  | [] => [m]
  | m' :: rest =>
    if m.start < m'.start then m :: m' :: rest
    else if m.start = m'.start then m :: rest
    else m' :: place m rest

/-- What is left of the maps outside the stretch from `start` to `stop`. Those
that meet it are the last ones to start before its end, up to the first that
ends before its start: as live maps do not overlap, no map below that one
reaches further. -/
def clear (s : MapSet) (start stop : UInt64) : MapSet :=
  let below := (s.takeWhile fun m => m.start < stop).reverse
  let met := below.takeWhile fun m => start < m.stop
  let apart := below.dropWhile fun m => start < m.stop
  let above := s.dropWhile fun m => m.start < stop
  apart.reverse ++ met.reverse.flatMap (·.cut start stop) ++ above

/-- Add a map and cut the older ones down to what it leaves of them. -/
def insert (s : MapSet) (m : MapEntry) : MapSet := place m (s.clear m.start m.stop)

end MapSet
end Profiler
