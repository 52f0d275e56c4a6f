/-
# PE programs

A PE program has a stub for DOS that points to a COFF header, which an
optional header with the base of the image follows, and the tables of a COFF
file. What is loaded of a section is no longer than its bytes in the file.
Symbols that cannot be read are left out, for programs need none.

Key definitions: `Coff.ProgramHeader`, `Coff.ProgramHeader.parse`,
`Coff.programContents`.
-/
import Profiler.Binary.Coff
import Profiler.Binary.Kind

namespace Profiler
namespace Binary
namespace Coff

/-- What the headers of a program say. -/
structure ProgramHeader where
  tables : Header
  /-- The address that the image is loaded at. -/
  base : Nat
  deriving DecidableEq, Repr, Inhabited

namespace ProgramHeader

def optionalSize (wide : Bool) : Nat := if wide then 112 else 96

/-- The base of the image in the optional header. -/
def baseOf (wide : Bool) (optional : Bytes) : Nat :=
  if wide then layout.numberAt optional 24 8 else layout.numberAt optional 28 4

def directorySize : Nat := 8

/-- Read the headers behind the stub: the magic, the COFF header, the fixed
part of the optional header, and the directory, whose entries must fit. -/
def parse (wide : Bool) (bs : Bytes) : Except CoffFault ProgramHeader := do
  let some offset := Kind.programOffset? bs | throw .programHeaders
  let headers? := bs.slice? offset (4 + Header.size + optionalSize wide)
  let some headers := headers? | throw .programHeaders
  let header := (headers.drop 4).take Header.size
  let optional := headers.drop (4 + Header.size)
  let declared := layout.numberAt header 16 2
  if declared < optionalSize wide then throw .optionalHeaderSize
  let directoryOffset := offset + headers.length
  let some directory := bs.slice? directoryOffset (declared - optionalSize wide)
    | throw .optionalHeader
  let count := layout.numberAt optional (optionalSize wide - 4) 4
  if directory.length < count * directorySize then throw .directories
  return { tables := Header.ofBytes header (offset + 4), base := baseOf wide optional }

end ProgramHeader

def Section.toProgramSegment (base : Nat) (s : Section) : LoadedSegment :=
  loadedSegment s.offset (min s.virtualSize s.size) (base + s.vaddr)

/-- What a program holds. -/
def programContents (wide : Bool) (bs : Bytes) : Except CoffFault Contents := do
  let header ← ProgramHeader.parse wide bs
  let sections ← sections header.tables bs
  let symbols := (symbols false header.tables bs).toOption.getD {}
  return { segments := sections.map (Section.toProgramSegment header.base)
           functions := functions header.base sections symbols }

end Coff
end Binary
end Profiler
