/-
# What an ELF file says about a program

The symbols of a program, the parts of the file that are loaded and the build
id in its notes. A file is refused as a whole if one of its tables is broken,
also a table that is not of interest here.

Key definitions: `Elf.SymbolEntry`, `Elf.Image`, `Elf.Image.parse`,
`Elf.Image.buildId?`, `Elf.contents`.
-/
import Profiler.Binary.Contents
import Profiler.Binary.Elf.Layout

namespace Profiler
namespace Binary
namespace Elf

/-- An entry of a symbol table. -/
structure SymbolEntry where
  /-- Where the name begins in the table's strings. -/
  name : Nat
  info : Nat
  value : Nat
  size : Nat
  deriving DecidableEq, Repr, Inhabited

namespace SymbolEntry

def widths (wide : Bool) : List Nat :=
  if wide then [4, 1, 1, 2, 8, 8] else [4, 4, 4, 1, 1, 2]

def ofNumbers (wide : Bool) (l : List Nat) : SymbolEntry :=
  if wide then { name := l.getD 0 0, info := l.getD 1 0, value := l.getD 4 0, size := l.getD 5 0 }
  else { name := l.getD 0 0, info := l.getD 3 0, value := l.getD 1 0, size := l.getD 2 0 }

/-- Whether the symbol is a function, also one that is chosen on loading. -/
def isFunction (s : SymbolEntry) : Bool := s.info % 16 == 2 || s.info % 16 == 10

end SymbolEntry

/-- A symbol table and the strings that hold its names. -/
structure SymbolSection where
  /-- The table's place among the sections, 0 if there is no table. -/
  index : Nat := 0
  entries : List SymbolEntry := []
  /-- The strings, if they lie inside the file. -/
  strings? : Option Bytes := none
  deriving DecidableEq, Repr, Inhabited

namespace SymbolSection

/-- The name that begins at an offset of the strings, up to its NUL. -/
def name? (t : SymbolSection) (offset : Nat) : Option String := do
  nameAt? (← t.strings?) offset

end SymbolSection

/-- The strings that a symbol table refers to; section 0 stands for none. -/
def strings? (bs : Bytes) (all : List Section) (link : Nat) :
    Except ElfFault (Option Bytes) := do
  if link = 0 then return none
  let some s := all[link]? | throw .sectionIndex
  if s.type ≠ Section.stringsType then throw .stringsType
  if UInt64.size ≤ s.offset + s.size then throw .stringsRange
  return s.bytes? bs

/-- Check the tables that give the symbols of a table their sections. -/
def checkSymbolSections (bs : Bytes) (all : List Section) (index : Nat) : Except ElfFault Unit :=
  if all.all fun s => s.type != Section.symbolSectionsType || s.link != index ||
      (s.bytes? bs).isSome then .ok ()
  else .error .symbolSections

/-- The first symbol table of a type. -/
def symbolSection (f : Layout) (bs : Bytes) (all : List Section) (type : Nat) :
    Except ElfFault SymbolSection := do
  match all.zipIdx.find? fun (s, _) => s.type == type with
  | none => return {}
  | some (s, index) =>
    let some data := s.bytes? bs | throw .symbols
    let widths := SymbolEntry.widths f.wide
    let rows ← table f widths .symbols data 0 (data.length / entrySize widths)
    let strings? ← strings? bs all s.link
    checkSymbolSections bs all index
    return { index, entries := rows.map (SymbolEntry.ofNumbers f.wide), strings? }

/-- Check the sections of relocations that use a symbol table, last one first. -/
def checkRelocations (all : List Section) (index : Nat) : List Section → Except ElfFault Unit
  | [] => .ok ()
  | s :: rest => do
    checkRelocations all index rest
    if s.isRelocations && s.link == index && s.info != 0 then
      match all[s.info]? with
      | none => throw .relocated
      | some target => if target.isRelocations then throw .relocatedTwice

/-- The tables of an ELF file. -/
structure Image where
  layout : Layout
  segments : List Segment
  sections : List Section
  symbols : SymbolSection
  dynamicSymbols : SymbolSection
  deriving Repr, Inhabited

/-- A note: who wrote it, of what kind, and what it says. -/
structure Note where
  name : Bytes
  type : Nat
  content : Bytes
  deriving DecidableEq, Repr, Inhabited

/-- A name without the NULs at its end. -/
def dropNuls (name : Bytes) : Bytes := (name.reverse.dropWhile (· == 0)).reverse

/-- The first note and the bytes of those after it. -/
def Note.first (f : Layout) (alignment : Nat) (bs : Bytes) : Except ElfFault (Note × Bytes) := do
  match f.numbers [4, 4, 4] bs, bs.splitAt? 12 with
  | [nameSize, contentSize, type], some (_, rest) =>
    let some name := rest.slice? 0 nameSize | throw .noteName
    let start := alignUp (12 + nameSize) alignment
    let some content := bs.slice? start contentSize | throw .noteContent
    let note : Note := { name := dropNuls name, type, content }
    return (note, bs.drop (max 12 (alignUp (start + contentSize) alignment)))
  | _, _ => throw .noteLength

/-- The content of the first note that is a build id. -/
def findBuildId (f : Layout) (alignment : Nat) (bs : Bytes) : Except ElfFault (Option Bytes) :=
  if _h : bs = [] then .ok none
  else
    match _hfirst : Note.first f alignment bs with
    | .error e => .error e
    | .ok (note, rest) =>
      if note.name = [0x47, 0x4e, 0x55] ∧ note.type = 3 then .ok (some note.content)
      else if _hless : rest.length < bs.length then findBuildId f alignment rest
      else .ok none
termination_by bs.length

/-- The build id in a run of notes, whose parts are aligned as is said. -/
def buildIdIn (f : Layout) (alignment : Nat) (bs : Bytes) : Except ElfFault (Option Bytes) :=
  if alignment ≤ 4 then findBuildId f 4 bs
  else if alignment = 8 then findBuildId f 8 bs
  else .error .noteAlignment

namespace Image

def parse (wide : Bool) (bs : Bytes) : Except ElfFault Image := do
  let h ← Header.parse wide bs
  let segments ← Elf.segments h bs
  let sections ← Elf.sections h bs
  checkNames h bs sections
  let symbols ← symbolSection h.layout bs sections Section.symbolsType
  let dynamicSymbols ← symbolSection h.layout bs sections Section.dynamicSymbolsType
  checkRelocations sections symbols.index sections
  return { layout := h.layout, segments, sections, symbols, dynamicSymbols }

/-- The build id in the notes of sections, in turn. -/
def buildIdOfSections (f : Layout) (bs : Bytes) : List Section → Except ElfFault (Option Bytes)
  | [] => .ok none
  | s :: rest =>
    if s.type = Section.notesType then do
      let some notes := s.bytes? bs | throw .noteSection
      match ← buildIdIn f s.alignment notes with
      | some id => return some id
      | none => buildIdOfSections f bs rest
    else buildIdOfSections f bs rest

/-- The build id in the notes of segments, in turn. -/
def buildIdOfSegments (f : Layout) (bs : Bytes) : List Segment → Except ElfFault (Option Bytes)
  | [] => .ok none
  | s :: rest =>
    if s.type = Segment.noteType then do
      let some notes := bs.slice? s.offset s.fileSize | throw .noteSegment
      match ← buildIdIn f s.alignment notes with
      | some id => return some id
      | none => buildIdOfSegments f bs rest
    else buildIdOfSegments f bs rest

/-- The build id of a file, from its sections or, if it has none, from its
segments. -/
def buildId? (image : Image) (bs : Bytes) : Except ElfFault (Option BuildId) := do
  let id? ← if image.sections.isEmpty then buildIdOfSegments image.layout bs image.segments
    else buildIdOfSections image.layout bs image.sections
  return id?.map BuildId.ofBytes

end Image

def functionOf? (table : SymbolSection) (e : SymbolEntry) : Option Symbol :=
  if e.isFunction then namedFunction? e.value e.size (table.name? e.name) else none

/-- The functions of a symbol table, whose first entry is none. -/
def functionsOf (table : SymbolSection) : List Symbol :=
  (table.entries.drop 1).filterMap (functionOf? table)

def loaded (segments : List Segment) : List LoadedSegment :=
  (segments.filter (·.type == Segment.loadType)).map fun s =>
    loadedSegment s.offset s.fileSize s.vaddr

/-- What a file holds whose words have 64 bits or not. -/
def contents (wide : Bool) (bs : Bytes) : Except ElfFault Contents := do
  let image ← Image.parse wide bs
  return {
    buildId := ← image.buildId? bs
    segments := loaded image.segments
    functions := functionsOf image.symbols ++ functionsOf image.dynamicSymbols }

end Elf
end Binary
end Profiler
