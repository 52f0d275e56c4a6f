/-
# XCOFF files

An XCOFF file begins with a header, perhaps a second one for programs, and the
table of sections. Symbols are followed by entries that belong to them, the
last of which tells what a symbol of the linker stands for. All numbers are
big-endian. Nothing says which parts of the file are loaded where.

Key definitions: `Xcoff.Header`, `Xcoff.Header.parse`, `Xcoff.SymbolTable`,
`Xcoff.function?`, `Xcoff.contents`.
-/
import Profiler.Binary.Contents
import Profiler.Binary.Layout
import Profiler.Error

namespace Profiler
namespace Binary
namespace Xcoff

/-- Numbers are big-endian. -/
def layout (wide : Bool) : Layout := { wide, bigEndian := true }

/-- What the header says. -/
structure Header where
  sectionCount : Nat
  /-- Where the symbols begin, 0 if there are none. -/
  symbolOffset : Nat
  symbolCount : Nat
  /-- The bytes of the second header. -/
  programSize : Nat
  flags : Nat
  deriving DecidableEq, Repr, Inhabited

namespace Header

def size (wide : Bool) : Nat := if wide then 24 else 20

/-- The count of symbols comes last in wide files. -/
def ofBytes (wide : Bool) (header : Bytes) : Header :=
  if wide then
    let l := (layout wide).numbers [2, 2, 4, 8, 2, 2, 4] header
    { sectionCount := l.getD 1 0, symbolOffset := l.getD 3 0, symbolCount := l.getD 6 0
      programSize := l.getD 4 0, flags := l.getD 5 0 }
  else
    let l := (layout wide).numbers [2, 2, 4, 4, 4, 2, 2] header
    { sectionCount := l.getD 1 0, symbolOffset := l.getD 3 0, symbolCount := l.getD 4 0
      programSize := l.getD 5 0, flags := l.getD 6 0 }

def isProgram (h : Header) : Bool := h.flags.testBit 1

def fullProgramSize (wide : Bool) : Nat := if wide then 120 else 72

/-- Read the header at the start of a file. A full second header of a program
must be there. -/
def parse (wide : Bool) (bs : Bytes) : Except XcoffFault Header := do
  let some header := bs.slice? 0 (size wide) | throw .header
  let h := ofBytes wide header
  if h.isProgram ∧ h.programSize = fullProgramSize wide ∧
      (bs.slice? (size wide) h.programSize).isNone then throw .programHeader
  return h

end Header

def sectionSize (wide : Bool) : Nat := if wide then 72 else 40

/-- Check that the table of sections is there. -/
def checkSections (wide : Bool) (h : Header) (bs : Bytes) : Except XcoffFault Unit :=
  let offset := Header.size wide + h.programSize
  if h.sectionCount = 0 ∨ (bs.slice? offset (h.sectionCount * sectionSize wide)).isSome then .ok ()
  else .error .sections

/-- The symbols of a file and the strings that hold their longer names. -/
structure SymbolTable where
  entries : List Bytes := []
  /-- The strings, if they lie inside the file. -/
  strings? : Option Bytes := none
  deriving DecidableEq, Repr, Inhabited

def symbolSize : Nat := 18

/-- Read the symbols. The length of the strings counts its own four bytes. -/
def symbols (wide : Bool) (h : Header) (bs : Bytes) : Except XcoffFault SymbolTable := do
  if h.symbolOffset = 0 then return {}
  let some entries := table? bs h.symbolOffset symbolSize h.symbolCount | throw .symbols
  let stringsOffset := h.symbolOffset + h.symbolCount * symbolSize
  let some length := bs.slice? stringsOffset 4 | throw .noStrings
  return { entries, strings? := bs.slice? stringsOffset ((layout wide).number length) }

/-- The storage classes of the linker's symbols: for others to see, hidden,
and ones that give way to others. -/
def linkerStorage : List Nat := [2, 107, 111]

/-- What the last entry of a symbol says of what it stands for. -/
structure Target where
  /-- A section, a name inside one, or something else. -/
  type : Nat
  /-- What a section is used for. -/
  storage : Nat
  length : Nat
  deriving DecidableEq, Repr, Inhabited

namespace Target

/-- The mark of such an entry in a wide file. -/
def mark : UInt8 := 251

/-- Read an entry. The length of a wide file is in two parts. -/
def ofBytes? (wide : Bool) (entry : Bytes) : Option Target :=
  if wide ∧ entry[17]? ≠ some mark then none
  else
    let l := (layout wide).numbers [4, 4, 2, 1, 1, 4] entry
    let high := if wide then l.getD 5 0 * UInt32.size else 0
    some { type := l.getD 3 0 % 8, storage := l.getD 4 0, length := high + l.getD 0 0 }

/-- The length of the function that the target is, if it is one: a section of
code or of glue code has its own length, and a name inside a section has none. -/
def functionLength? (t : Target) : Option Nat :=
  match t.type with
  | 1 | 3 => if t.storage = 0 ∨ t.storage = 6 then some t.length else none
  | 2 => some 0
  | _ => none

end Target

def name? (wide : Bool) (t : SymbolTable) (entry : Bytes) : Option String :=
  if wide then do nameAt? (← t.strings?) ((layout wide).numberAt entry 8 4)
  else fieldName? (layout wide) t.strings? (entry.take 8)

/-- The function of a symbol. -/
def function? (wide : Bool) (t : SymbolTable) (entry : Bytes) (rest : List Bytes) :
    Option Symbol := do
  let value := if wide then (layout wide).numberAt entry 0 8 else (layout wide).numberAt entry 8 4
  let extra := (layout wide).numberAt entry 17 1
  if extra = 0 ∨ !linkerStorage.contains ((layout wide).numberAt entry 16 1) then none
  let length ← (← Target.ofBytes? wide (← rest[extra - 1]?)).functionLength?
  namedFunction? value length (name? wide t entry)

/-- What a file holds whose words have 64 bits or not. -/
def contents (wide : Bool) (bs : Bytes) : Except XcoffFault Contents := do
  let header ← Header.parse wide bs
  checkSections wide header bs
  let t ← symbols wide header bs
  return { functions := (entriesWithRest t.entries).filterMap fun (entry, rest) =>
    function? wide t entry rest }

end Xcoff
end Binary
end Profiler
