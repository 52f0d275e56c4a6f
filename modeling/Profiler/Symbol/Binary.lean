/-
# Binaries and the symbols in them

A program file of any format that is read, with its functions as a table of
symbols. An address of a running program is first a place in the file, then an
address in the file's own layout, and then a function.

Key definitions: `Binary`, `Binary.vaddrOf?`, `Binary.symbolAt?`,
`Binary.Contents.ofBytes`, `Binary.ofBytes`, `Binary.minVaddr`.
-/
import Profiler.Binary.Coff.Program
import Profiler.Binary.Elf.Image
import Profiler.Binary.MachO
import Profiler.Binary.Xcoff
import Profiler.Symbol.Demangle

namespace Profiler

/-- A program file. -/
structure Binary where
  buildId : Option BuildId := none
  segments : List LoadedSegment := []
  symbols : SymbolTable := []
  deriving Repr, Inhabited

namespace Binary

def minVaddr (b : Binary) : UInt64 := ((b.segments.map LoadedSegment.vaddr).min?).getD 0

/-- The address in the file's layout of the byte at an offset. -/
def vaddrOf? (b : Binary) (offset : UInt64) : Option UInt64 :=
  (b.segments.find? (·.holds offset)).map fun s => s.vaddr + (offset - s.fileOffset)

/-- The function at an address of the file's layout. -/
def symbolAt? (b : Binary) (vaddr : UInt64) : Option Symbol := b.symbols.find? vaddr

/-- What a file holds, read by its format. -/
def Contents.ofBytes (bs : Bytes) : Except BinaryFault Contents := do
  match ← Kind.ofBytes bs with
  | .elf wide => (Elf.contents wide bs).mapError .elf
  | .machO wide => (MachO.contents wide bs).mapError .machO
  | .program wide => (Coff.programContents wide bs).mapError .coff
  | .coff big => (Coff.contents big bs).mapError .coff
  | .xcoff wide => (Xcoff.contents wide bs).mapError .xcoff
  | .other => throw .unsupportedFormat

/-- The binary with some contents; its functions have the names that programmers know. -/
def ofContents (c : Contents) : Binary :=
  { buildId := c.buildId, segments := c.segments
    symbols := SymbolTable.ofSymbols
      (c.functions.map fun f => { f with name := demangle f.name }) }

def ofBytes (bs : Bytes) : Except BinaryFault Binary := do
  return ofContents (← Contents.ofBytes bs)

def readBuildId (bs : Bytes) : Except BinaryFault (Option BuildId) := do
  return (← Contents.ofBytes bs).buildId

end Binary
end Profiler
