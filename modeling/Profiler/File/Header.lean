/-
# The header of a record file

A record file is made of sections: the header, the attr table with an id list
for each attr, the data, and the features behind a table of their places. The
header says where they are. It is believed only after `FileHeader.check` has
seen that no section leaves the file or meets another.

Key definitions: `Section`, `Section.overlaps`, `FileHeader`,
`FileHeader.parse`, `FileHeader.check`, `FileAttr`.
-/
import Profiler.Attr
import Profiler.Text.Quoted
import Profiler.File.Feature

namespace Profiler

/-- A range of a file: `size` bytes from `offset` on. -/
structure Section where
  offset : UInt64 := 0
  size : UInt64 := 0
  deriving DecidableEq, Repr, Inhabited

namespace Section

/-- The position after the last byte, if a word holds it. -/
def end? (s : Section) : Option UInt64 :=
  if s.offset.toNat + s.size.toNat < UInt64.size then some (s.offset + s.size) else none

/-- The position after the last byte, or the greatest word. -/
def endClamped (s : Section) : Nat := min (s.offset.toNat + s.size.toNat) (UInt64.size - 1)

/-- Whether two ranges share a byte. Empty ranges share none. -/
def overlaps (s t : Section) : Bool :=
  s.size != 0 && t.size != 0 && s.offset.toNat < t.endClamped && t.offset.toNat < s.endClamped

def fits (s : Section) (fileSize : Nat) : Bool :=
  match s.end? with
  | some e => e.toNat ≤ fileSize
  | none => false

def slice (s : Section) (file : Bytes) : Bytes := (file.drop s.offset.toNat).take s.size.toNat

def encode (s : Section) : Bytes := Bytes.u64 s.offset ++ Bytes.u64 s.size

def parse : Parse Section := do return { offset := ← Parse.u64, size := ← Parse.u64 }

def byteSize : Nat := 16

end Section

/-- What every record file begins with. -/
def fileMagic : Bytes := [0x50, 0x45, 0x52, 0x46, 0x49, 0x4c, 0x45, 0x32]

def fileHeaderSize : Nat := 104

/-- An attr of the file with the place of its id list. -/
structure FileAttr where
  attr : Attr
  ids : Section
  deriving DecidableEq, Repr

namespace FileAttr

/-- The bytes of an entry as this library writes it. -/
def byteSize : Nat := Attr.byteSize + Section.byteSize

def encode (f : FileAttr) : Bytes := f.attr.encode ++ f.ids.encode

/-- An entry may be shorter or longer than ours: the last 16 bytes are the
place of the id list, and what comes before is the attr. -/
def decode (bs : Bytes) : Except Corruption FileAttr := do
  if bs.length < Section.byteSize then throw (.fileAttr bs.length)
  let n := bs.length - Section.byteSize
  let attr ← Attr.decode (bs.take n)
  let ids ← Section.parse.value (bs.drop n)
  return { attr, ids }

end FileAttr

/-- An attr with the ids of the descriptors that were opened for it. -/
structure AttrWithIds where
  attr : Attr
  ids : List UInt64
  deriving DecidableEq, Repr, Inhabited

/-- Where the sections of a file are and which features it has. -/
structure FileHeader where
  headerSize : UInt64 := UInt64.ofNat fileHeaderSize
  /-- The bytes of an entry of the attr table. -/
  attrSize : UInt64 := UInt64.ofNat FileAttr.byteSize
  attrs : Section := {}
  data : Section := {}
  eventTypes : Section := {}
  /-- A bit for each feature. -/
  features : BitVec 256 := 0
  deriving DecidableEq, Repr

namespace FileHeader

def setFeature (h : FileHeader) (f : Feature) : FileHeader :=
  { h with features := h.features ||| BitVec.twoPow 256 f }

def hasFeature (h : FileHeader) (f : Feature) : Bool := h.features.getLsbD f

def featureIds (h : FileHeader) : List Feature := (List.range Feature.bound).filter h.hasFeature

def encode (h : FileHeader) : Bytes :=
  fileMagic ++ Bytes.u64 h.headerSize ++ Bytes.u64 h.attrSize ++ h.attrs.encode ++ h.data.encode ++
    h.eventTypes.encode ++ Bytes.ofNat 32 h.features.toNat

def parse : Parse FileHeader := do
  let magic ← Parse.take 8
  if magic ≠ fileMagic then
    Parse.failAt fun _ =>
      .magic (Quoted.quote (Utf8.decode magic)) (Quoted.quote (Utf8.decode fileMagic))
  return {
    headerSize := ← Parse.u64
    attrSize := ← Parse.u64
    attrs := ← Section.parse
    data := ← Section.parse
    eventTypes := ← Section.parse
    features := BitVec.ofNat 256 (← Parse.take 32).toNat }

def own (h : FileHeader) : Section := { offset := 0, size := h.headerSize }

/-- The sections that every file has, with their names. -/
def fixedSections (h : FileHeader) : List (String × Section) :=
  [("header", h.own), ("attr", h.attrs), ("data", h.data)]

def checkRanges (fileSize : Nat) : List (String × Section) → Except Corruption Unit
  | [] => .ok ()
  | (name, s) :: rest =>
    if s.fits fileSize then checkRanges fileSize rest
    else .error (.sectionOutside name s.offset.toNat s.size.toNat fileSize)

/-- The first two sections that share a byte. -/
def checkDisjoint : List (String × Section) → Except Corruption Unit
  | [] => .ok ()
  | (name, s) :: rest =>
    match rest.find? fun t => s.overlaps t.2 with
    | some (other, _) => .error (.sectionsOverlap name other)
    | none => checkDisjoint rest

/-- Whether the header can describe a file of this size. -/
def check (h : FileHeader) (fileSize : Nat) : Except Corruption Unit := do
  if h.headerSize.toNat < fileHeaderSize then
    throw (.headerSize h.headerSize.toNat fileHeaderSize)
  if h.attrSize.toNat ≤ Section.byteSize then throw (.attrSize h.attrSize.toNat)
  checkRanges fileSize h.fixedSections
  checkDisjoint h.fixedSections
  if h.attrs.size % h.attrSize ≠ 0 then
    throw (.attrTable h.attrs.size.toNat h.attrSize.toNat)

/-- Where the table of feature places begins: after the data. -/
def featureTableOffset (h : FileHeader) : UInt64 := h.data.offset + h.data.size

def featureTable (h : FileHeader) : Section :=
  ⟨h.featureTableOffset, UInt64.ofNat (h.featureIds.length * Section.byteSize)⟩

end FileHeader
end Profiler
