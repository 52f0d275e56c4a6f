/-
# COFF object files

A COFF file begins with a header that says how many sections follow it and
where the symbols are; the names of symbols that do not fit their field follow
the symbols. A variant for many sections has a longer header and longer
symbols. All numbers are little-endian.

Key definitions: `Coff.Header`, `Coff.Section`, `Coff.SymbolTable`,
`Coff.functions`, `Coff.contents`.
-/
import Profiler.Binary.Contents
import Profiler.Binary.Layout
import Profiler.Error

namespace Profiler
namespace Binary
namespace Coff

/-- Numbers are little-endian. -/
def layout : Layout := {}

/-- Where the tables of a file are. -/
structure Header where
  sectionCount : Nat
  sectionOffset : Nat
  symbolCount : Nat
  /-- Where the symbols begin, 0 if there are none. -/
  symbolOffset : Nat
  deriving DecidableEq, Repr, Inhabited

namespace Header

def size : Nat := 20

/-- What a header at an offset says. The sections follow what else it is
declared to have. -/
def ofBytes (header : Bytes) (offset : Nat) : Header :=
  let l := layout.numbers [2, 2, 4, 4, 4, 2, 2] header
  { sectionCount := l.getD 1 0, sectionOffset := offset + size + l.getD 5 0
    symbolCount := l.getD 4 0, symbolOffset := l.getD 3 0 }

/-- The bytes of the header of the variant for many sections. -/
def bigSize : Nat := 56

def ofBigBytes (header : Bytes) : Header :=
  let l := layout.numbers [4, 4, 4] (header.drop 44)
  { sectionCount := l.getD 0 0, sectionOffset := bigSize
    symbolCount := l.getD 2 0, symbolOffset := l.getD 1 0 }

def parse (big : Bool) (bs : Bytes) : Except CoffFault Header :=
  if big then
    (bs.slice? 0 bigSize).elim (.error .bigHeader) fun header => .ok (ofBigBytes header)
  else (bs.slice? 0 size).elim (.error .header) fun header => .ok (ofBytes header 0)

end Header

/-- A part of the file and where it is loaded. -/
structure Section where
  virtualSize : Nat
  vaddr : Nat
  size : Nat
  offset : Nat
  flags : Nat
  deriving DecidableEq, Repr, Inhabited

namespace Section

def entrySize : Nat := 40

def ofBytes (entry : Bytes) : Section :=
  let l := layout.numbers [4, 4, 4, 4, 4, 4, 2, 2, 4] (entry.drop 8)
  { virtualSize := l.getD 0 0, vaddr := l.getD 1 0, size := l.getD 2 0, offset := l.getD 3 0
    flags := l.getD 8 0 }

/-- Whether the section has no bytes in the file; it begins as zeros. -/
def isZeros (s : Section) : Bool := s.flags.testBit 7

def toSegment (s : Section) : LoadedSegment :=
  if s.isZeros then loadedSegment 0 0 s.vaddr else loadedSegment s.offset s.size s.vaddr

end Section

def sections (h : Header) (bs : Bytes) : Except CoffFault (List Section) :=
  match table? bs h.sectionOffset Section.entrySize h.sectionCount with
  | some entries => .ok (entries.map Section.ofBytes)
  | none => .error .sections

/-- The symbols of a file and the strings that hold their longer names. -/
structure SymbolTable where
  /-- Whether section numbers have four bytes. -/
  big : Bool := false
  entries : List Bytes := []
  /-- The strings, if they lie inside the file. -/
  strings? : Option Bytes := none
  deriving DecidableEq, Repr, Inhabited

def symbolSize (big : Bool) : Nat := if big then 20 else 18

/-- Read the symbols. The length of the strings counts its own four bytes. -/
def symbols (big : Bool) (h : Header) (bs : Bytes) : Except CoffFault SymbolTable := do
  if h.symbolOffset = 0 then return {}
  let some entries := table? bs h.symbolOffset (symbolSize big) h.symbolCount
    | throw .symbols
  let stringsOffset := h.symbolOffset + h.symbolCount * symbolSize big
  let some length := bs.slice? stringsOffset 4 | throw .noStrings
  return { big, entries, strings? := bs.slice? stringsOffset (layout.number length) }

/-- A symbol without its name. -/
structure SymbolEntry where
  value : Nat
  /-- The number of its section, counted from 1; others have no section. -/
  home? : Option Nat
  type : Nat
  storage : Nat
  /-- How many entries after it belong to it. -/
  extra : Nat
  deriving DecidableEq, Repr, Inhabited

namespace SymbolEntry

/-- The least number of four bytes and the least of two that means no section. -/
def specialSections (big : Bool) : Nat := if big then 0x80000000 else 0xff00

def ofBytes (big : Bool) (entry : Bytes) : SymbolEntry :=
  let l := layout.numbers [4, symbolSize big - 16, 2, 1, 1] (entry.drop 8)
  let number := l.getD 1 0
  { value := l.getD 0 0
    home? := if number = 0 ∨ specialSections big ≤ number then none else some number
    type := l.getD 2 0, storage := l.getD 3 0, extra := l.getD 4 0 }

/-- The storage classes of names for others to see, names of this file alone,
and names that give way to others. -/
def external : Nat := 2
def static : Nat := 3
def weak : Nat := 105

def isFunction (s : SymbolEntry) : Bool :=
  s.type / 16 % 4 == 2 && [external, static, weak].contains s.storage

/-- How long a function is, if the entry after it says so. -/
def functionSize (s : SymbolEntry) (rest : List Bytes) : Nat :=
  if s.storage = external ∧ 0 < s.extra then
    (rest.head?.map fun extra => layout.numberAt extra 4 4).getD 0
  else 0

end SymbolEntry

/-- The function of a symbol; addresses are in sections, and these count from
the base of the image. -/
def function? (base : Nat) (sections : List Section) (t : SymbolTable) (entry : Bytes)
    (rest : List Bytes) : Option Symbol := do
  let s := SymbolEntry.ofBytes t.big entry
  if !s.isFunction then none
  let home ← sections[(← s.home?) - 1]?
  namedFunction? (base + home.vaddr + s.value) (s.functionSize rest)
    (fieldName? layout t.strings? (entry.take 8))

def functions (base : Nat) (sections : List Section) (t : SymbolTable) : List Symbol :=
  (entriesWithRest t.entries).filterMap fun (entry, rest) => function? base sections t entry rest

/-- What an object file holds. -/
def contents (big : Bool) (bs : Bytes) : Except CoffFault Contents := do
  let header ← Header.parse big bs
  let sections ← sections header bs
  let symbols ← symbols big header bs
  return { segments := sections.map Section.toSegment
           functions := functions 0 sections symbols }

end Coff
end Binary
end Profiler
