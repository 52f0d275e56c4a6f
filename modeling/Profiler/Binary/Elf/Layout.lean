/-
# The layout of ELF files

An ELF file has words of 32 or 64 bits in either byte order. Its header says
where the table of segments and the table of sections are; each entry of a
table has fields of fixed widths. A table or field is read from the bytes at
its place and fails if the file ends before.

Key definitions: `Elf.Header`, `Elf.Segment`, `Elf.Section`,
`Elf.Header.parse`, `Elf.segments`, `Elf.sections`.
-/
import Profiler.Binary.Layout
import Profiler.Error

namespace Profiler

namespace Binary
namespace Elf

/-- The entries of a table of `count` entries at an offset, as the numbers in them. -/
def table (f : Layout) (widths : List Nat) (fault : ElfFault) (bs : Bytes) (offset count : Nat) :
    Except ElfFault (List (List Nat)) :=
  match table? bs offset (entrySize widths) count with
  | some rows => .ok (rows.map (f.numbers widths))
  | none => .error fault

/-- What the header says. -/
structure Header where
  layout : Layout
  segmentOffset : Nat
  sectionOffset : Nat
  segmentSize : Nat
  segmentCount : Nat
  sectionSize : Nat
  sectionCount : Nat
  /-- The section that holds the names of sections. -/
  namesIndex : Nat
  deriving DecidableEq, Repr, Inhabited

/-- A part of the file and where it is loaded. -/
structure Segment where
  type : Nat
  offset : Nat
  vaddr : Nat
  fileSize : Nat
  alignment : Nat
  deriving DecidableEq, Repr, Inhabited

/-- A part of the file and what it holds. -/
structure Section where
  type : Nat
  offset : Nat
  size : Nat
  /-- Another section that this one needs. -/
  link : Nat
  info : Nat
  alignment : Nat
  deriving DecidableEq, Repr, Inhabited

namespace Header

/-- The bytes that identify an ELF file and how it is laid out. -/
def identificationSize : Nat := 16

def widths (word : Nat) : List Nat := [2, 2, 4, word, word, word, 4, 2, 2, 2, 2, 2, 2]

def size (wide : Bool) : Nat := if wide then 64 else 52

/-- Read the header at the start of a file whose words have 64 bits or not. -/
def parse (wide : Bool) (bs : Bytes) : Except ElfFault Header := do
  if bs.length < size wide then throw .header
  let order := bs.getD 5 0
  if (order ≠ 1 ∧ order ≠ 2) ∨ bs[6]? ≠ some 1 then throw .unsupportedHeader
  let layout : Layout := { wide, bigEndian := order == 2 }
  match layout.numbers (widths layout.word) (bs.drop identificationSize) with
  | [_, _, _, _, segmentOffset, sectionOffset, _, _, segmentSize, segmentCount, sectionSize,
      sectionCount, namesIndex] =>
    return { layout, segmentOffset, sectionOffset, segmentSize, segmentCount, sectionSize,
             sectionCount, namesIndex }
  | _ => throw .header

end Header

namespace Segment

def widths (wide : Bool) : List Nat :=
  if wide then [4, 4, 8, 8, 8, 8, 8, 8] else [4, 4, 4, 4, 4, 4, 4, 4]

/-- The flags of a segment stand second in wide files and else next to last. -/
def ofNumbers (wide : Bool) (l : List Nat) : Segment :=
  let l := if wide then l.eraseIdx 1 else l.eraseIdx 6
  { type := l.getD 0 0, offset := l.getD 1 0, vaddr := l.getD 2 0, fileSize := l.getD 4 0
    alignment := l.getD 6 0 }

def loadType : Nat := 1

def noteType : Nat := 4

end Segment

namespace Section

def widths (word : Nat) : List Nat := [4, 4, word, word, word, word, 4, 4, word, word]

def ofNumbers (l : List Nat) : Section :=
  { type := l.getD 1 0, offset := l.getD 4 0, size := l.getD 5 0, link := l.getD 6 0
    info := l.getD 7 0, alignment := l.getD 8 0 }

/-- The types of sections that are of interest. -/
def symbolsType : Nat := 2
def stringsType : Nat := 3
def relocationsWithAddendsType : Nat := 4
def notesType : Nat := 7
def emptyType : Nat := 8
def relocationsType : Nat := 9
def dynamicSymbolsType : Nat := 11
def symbolSectionsType : Nat := 18

def isRelocations (s : Section) : Bool :=
  s.type == relocationsType || s.type == relocationsWithAddendsType

/-- Where the section's bytes are in the file; some sections have none there. -/
def range? (s : Section) : Option (Nat × Nat) :=
  if s.type = emptyType then none else some (s.offset, s.size)

/-- The section's bytes, if the file has them. -/
def bytes? (s : Section) (bs : Bytes) : Option Bytes :=
  match s.range? with
  | some (offset, size) => bs.slice? offset size
  | none => some []

end Section

/-- The first section, which holds counts that are too large for the header. -/
def firstSection? (h : Header) (bs : Bytes) : Except ElfFault (Option Section) := do
  if h.sectionOffset = 0 then return none
  let widths := Section.widths h.layout.word
  if h.sectionSize ≠ entrySize widths then throw .sectionSize
  let rows ← table h.layout widths .firstSection bs h.sectionOffset 1
  return rows.head?.map Section.ofNumbers

/-- The count in the header that stands for "in the first section". -/
def countElsewhere : Nat := 0xffff

def segmentCount (h : Header) (bs : Bytes) : Except ElfFault Nat := do
  if h.segmentCount < countElsewhere then return h.segmentCount
  match ← firstSection? h bs with
  | some s => return s.info
  | none => throw .segmentCount

/-- The table of segments. -/
def segments (h : Header) (bs : Bytes) : Except ElfFault (List Segment) := do
  if h.segmentOffset = 0 then return []
  let count ← segmentCount h bs
  if count = 0 then return []
  let widths := Segment.widths h.layout.wide
  if h.segmentSize ≠ entrySize widths then throw .segmentSize
  let rows ← table h.layout widths .segments bs h.segmentOffset count
  return rows.map (Segment.ofNumbers h.layout.wide)

def sectionCount (h : Header) (bs : Bytes) : Except ElfFault Nat := do
  if h.sectionCount ≠ 0 then return h.sectionCount
  return ((← firstSection? h bs).map Section.size).getD 0

/-- The table of sections. -/
def sections (h : Header) (bs : Bytes) : Except ElfFault (List Section) := do
  if h.sectionOffset = 0 then return []
  let count ← sectionCount h bs
  if count = 0 then return []
  let widths := Section.widths h.layout.word
  if h.sectionSize ≠ entrySize widths then throw .sectionSize
  let rows ← table h.layout widths .sections bs h.sectionOffset count
  return rows.map Section.ofNumbers

/-- Check that the names of sections can be found. -/
def checkNames (h : Header) (bs : Bytes) (all : List Section) : Except ElfFault Unit := do
  if all.isEmpty then return
  let index ← if h.namesIndex ≠ countElsewhere then pure h.namesIndex
    else pure (((← firstSection? h bs).map Section.link).getD 0)
  if index = 0 then throw .noNames
  match all[index]? with
  | none => throw .namesIndex
  | some s =>
    if let some (offset, size) := s.range? then
      if UInt64.size ≤ offset + size then throw .namesRange

end Elf
end Binary
end Profiler
