/-
# What a profiler needs of a program file

Whatever its format, a program file is of use for three things: which parts of
it are loaded where, which functions it names, and its build id. Functions
without an address or a readable name are of no use.

Key definitions: `LoadedSegment`, `Binary.Contents`, `Binary.namedFunction?`.
-/
import Profiler.BuildId
import Profiler.Symbol.Basic

namespace Profiler

/-- A part of a file that is loaded. -/
structure LoadedSegment where
  fileOffset : UInt64
  fileSize : UInt64
  vaddr : UInt64
  deriving DecidableEq, Repr, Inhabited

def LoadedSegment.holds (s : LoadedSegment) (offset : UInt64) : Bool :=
  s.fileOffset ≤ offset && offset < s.fileOffset + s.fileSize

namespace Binary

/-- What a file was found to hold, functions under the names the file gives them. -/
structure Contents where
  buildId : Option BuildId := none
  segments : List LoadedSegment := []
  functions : List Symbol := []
  deriving Repr, Inhabited

/-- A loaded segment whose place is read as plain numbers. -/
def loadedSegment (fileOffset fileSize vaddr : Nat) : LoadedSegment :=
  ⟨UInt64.ofNat fileOffset, UInt64.ofNat fileSize, UInt64.ofNat vaddr⟩

def namedFunction? (addr size : Nat) (name? : Option String) : Option Symbol :=
  if UInt64.ofNat addr = 0 then none
  else name?.map fun name => ⟨UInt64.ofNat addr, UInt64.ofNat size, name⟩

end Binary
end Profiler
