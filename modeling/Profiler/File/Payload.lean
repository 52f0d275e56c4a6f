/-
# What features hold

The payload of each kind of feature as a value and as bytes: texts, the
command line, build ids, key and value pairs, cpu counts, event descriptions,
and the binaries with their symbols. Texts are padded with NULs and carry
their padded length.

Key definitions: `LengthText`, `CommandLineFeature`, `BuildIdList`,
`MetaInfo`, `CpuCounts`, `EventDesc`, `FileEntry`.
-/
import Profiler.File.Header
import Profiler.Record.Encode
import Profiler.Record.Decode
import Profiler.OrderedMap

namespace Profiler

open Parse (u32 u64 u64s take)

namespace LengthText

/-- A padded length, the text, and NULs up to the length. -/
def encode (s : String) : Bytes :=
  let length := Bytes.paddedTextLength s 64
  Bytes.u32 (UInt32.ofNat length) ++ (Utf8.encode s).fixed length

/-- The text ends at the first NUL, or with the field. -/
def parse : Parse String := do
  let field ← take (← u32).toNat
  return Utf8.decode (field.takeWhile (· != 0))

def decode (bs : Bytes) : Except Corruption String := parse.value bs

end LengthText

namespace CommandLineFeature

def encode (args : List String) : Bytes :=
  Bytes.u32 (UInt32.ofNat args.length) ++ args.flatMap LengthText.encode

def parse : Parse (List String) := do Parse.times LengthText.parse (← u32).toNat

def decode (bs : Bytes) : Except Corruption (List String) := parse.value bs

end CommandLineFeature

namespace BuildIdList

def encode (rs : List BuildIdRecord) : Bytes := rs.flatMap fun r => (Record.buildId r).encode

/-- The records from a position of the payload on. -/
def decodeFrom (position : Nat) (bs : Bytes) : Except Corruption (List BuildIdRecord) :=
  if _h : bs = [] then .ok []
  else
    match RecordHeader.decode bs with
    | .error e => .error e
    | .ok h =>
      if _hsize : h.size.toNat = 0 ∨ bs.length < h.size.toNat then
        .error (.buildIdOutside position)
      else
        match Record.decode Attr.empty (bs.take h.size.toNat) with
        | .error e => .error e
        | .ok (.buildId r) =>
          (decodeFrom (position + h.size.toNat) (bs.drop h.size.toNat)).map (r :: ·)
        | .ok r => .error (.buildIdType r.typeName)
termination_by bs.length
decreasing_by
  simp only [List.length_drop]
  omega

def decode (bs : Bytes) : Except Corruption (List BuildIdRecord) := decodeFrom 0 bs

end BuildIdList

abbrev MetaInfo := OrderedMap String String

namespace MetaInfo

/-- Each key and each value ended by a NUL. -/
def encode (m : MetaInfo) : Bytes :=
  m.entries.flatMap fun e => Utf8.encode e.1 ++ [0] ++ Utf8.encode e.2 ++ [0]

/-- Add the pairs of a payload, of which the last one with a key counts. -/
def decodeInto (m : MetaInfo) (bs : Bytes) : Except Corruption MetaInfo :=
  if _h : bs = [] then .ok m
  else
    match _hkey : bs.untilNul? with
    | none => .error .metaPair
    | some (key, rest) =>
      match _hvalue : rest.untilNul? with
      | none => .error .metaValue
      | some (value, rest) => decodeInto (m.insert (Utf8.decode key) (Utf8.decode value)) rest
termination_by bs.length
decreasing_by
  have shorter : ∀ {bs key rest : Bytes}, bs.untilNul? = some (key, rest) →
      rest.length < bs.length := by
    intro bs key rest h
    unfold Bytes.untilNul? at h
    split at h
    · simp at h
    · next b tail heq =>
      simp only [Option.some.injEq, Prod.mk.injEq] at h
      have hle := (List.dropWhile_sublist (p := (· != (0 : UInt8))) (l := bs)).length_le
      rw [heq, h.2] at hle
      exact hle
  have h1 := shorter _hkey
  have h2 := shorter _hvalue
  omega

def decode (bs : Bytes) : Except Corruption MetaInfo := decodeInto ⟨[]⟩ bs

end MetaInfo

/-- How many cpus the recorded system has. -/
structure CpuCounts where
  available : UInt32 := 0
  online : UInt32 := 0
  deriving DecidableEq, Repr

namespace CpuCounts

def encode (n : CpuCounts) : Bytes := Bytes.u32 n.available ++ Bytes.u32 n.online

def parse : Parse CpuCounts := do return { available := ← u32, online := ← u32 }

def decode (bs : Bytes) : Except Corruption CpuCounts := parse.value bs

end CpuCounts

/-- An event that was recorded: its attr, the name it was asked for by, and
the ids of its descriptors. -/
structure EventDesc where
  attr : Attr := {}
  name : String := ""
  ids : List UInt64 := []
  deriving DecidableEq, Repr, Inhabited

namespace EventDesc

def encodeEntry (e : EventDesc) : Bytes :=
  e.attr.encode ++ Bytes.u32 (UInt32.ofNat e.ids.length) ++ LengthText.encode e.name ++
    Bytes.u64s e.ids

def encode (es : List EventDesc) : Bytes :=
  Bytes.u32 (UInt32.ofNat es.length) ++ Bytes.u32 (UInt32.ofNat Attr.byteSize) ++
    es.flatMap encodeEntry

/-- An attr in a field of the given size. -/
def parseAttr (size : Nat) : Parse Attr := do
  let field ← take size
  match Attr.decode field with
  | .ok a => return a
  | .error e => Parse.failAt fun _ => e

def parseEntry (attrSize : Nat) : Parse EventDesc := do
  let attr ← parseAttr attrSize
  let count ← u32
  let name ← LengthText.parse
  let ids ← u64s count.toNat
  return { attr, name, ids }

def parse : Parse (List EventDesc) := do
  let count ← u32
  let attrSize ← u32
  Parse.times (parseEntry attrSize.toNat) count.toNat

def decode (bs : Bytes) : Except Corruption (List EventDesc) := parse.value bs

end EventDesc

/-- What a binary is. -/
inductive DsoType where
  | kernel
  | kernelModule
  | elfFile
  | dexFile
  | symbolMapFile
  | unknownFile
  deriving DecidableEq, Repr

namespace DsoType

def code : DsoType → UInt32
  | kernel => 0
  | kernelModule => 1
  | elfFile => 2
  | dexFile => 3
  | symbolMapFile => 4
  | unknownFile => 5

def all : List DsoType := [kernel, kernelModule, elfFile, dexFile, symbolMapFile, unknownFile]

def ofCode? (n : UInt32) : Option DsoType := all.find? (·.code == n)

def name : DsoType → String
  | kernel => "Kernel"
  | kernelModule => "KernelModule"
  | elfFile => "ElfFile"
  | dexFile => "DexFile"
  | symbolMapFile => "SymbolMapFile"
  | unknownFile => "UnknownFile"

end DsoType

/-- A symbol of a binary in a file. -/
structure FileSymbol where
  vaddr : UInt64 := 0
  len : UInt32 := 0
  name : String := ""
  deriving DecidableEq, Repr

/-- A binary with its symbols. The last three fields are stored only for the
types they belong to. -/
structure FileEntry where
  path : String := ""
  dsoType : DsoType := .elfFile
  minVaddr : UInt64 := 0
  symbols : List FileSymbol := []
  dexFileOffsets : List UInt64 := []
  fileOffsetOfMinVaddr : UInt64 := 0
  memoryOffsetOfMinVaddr : UInt64 := 0
  deriving DecidableEq, Repr

namespace FileSymbol

def encode (s : FileSymbol) : Bytes :=
  Bytes.u64 s.vaddr ++ Bytes.u32 s.len ++ Bytes.paddedText s.name 1

def parse : Parse FileSymbol := do
  return { vaddr := ← u64, len := ← u32, name := ← Parse.paddedText 1 }

end FileSymbol

namespace FileEntry

/-- The field that belongs to the type of the binary. -/
def encodeOffset (f : FileEntry) : Bytes :=
  match f.dsoType with
  | .dexFile =>
    Bytes.u32 (UInt32.ofNat f.dexFileOffsets.length) ++ Bytes.u64s f.dexFileOffsets
  | .elfFile => Bytes.u64 f.fileOffsetOfMinVaddr
  | .kernelModule => Bytes.u64 f.memoryOffsetOfMinVaddr
  | _ => []

def body (f : FileEntry) : Bytes :=
  Bytes.paddedText f.path 1 ++ Bytes.u32 f.dsoType.code ++ Bytes.u64 f.minVaddr ++
    Bytes.u32 (UInt32.ofNat f.symbols.length) ++ f.symbols.flatMap FileSymbol.encode ++
    f.encodeOffset

def encode (f : FileEntry) : Bytes := Bytes.u32 (UInt32.ofNat f.body.length) ++ f.body

def parseType : Parse DsoType := do
  let code ← u32
  match DsoType.ofCode? code with
  | some t => return t
  | none => Parse.failAt fun _ => .dsoType code.toNat

/-- The field that belongs to the type of the binary. -/
def parseOffset (f : FileEntry) : Parse FileEntry := do
  match f.dsoType with
  | .dexFile => return { f with dexFileOffsets := ← u64s (← u32).toNat }
  | .elfFile => return { f with fileOffsetOfMinVaddr := ← u64 }
  | .kernelModule => return { f with memoryOffsetOfMinVaddr := ← u64 }
  | _ => return f

def parseBody : Parse FileEntry := do
  let path ← Parse.paddedText 1
  let dsoType ← parseType
  let minVaddr ← u64
  let symbols ← Parse.times FileSymbol.parse (← u32).toNat
  parseOffset { path, dsoType, minVaddr, symbols }

/-- An entry has exactly the bytes of its length. -/
def decodeBody (bs : Bytes) : Except Corruption FileEntry := do
  let (f, c) ← parseBody.run (Cursor.start bs)
  if c.rest.isEmpty then return f
  else throw (.fileEntryTail c.rest.length f.path)

def parse : Parse FileEntry := do
  let field ← take (← u32).toNat
  match decodeBody field with
  | .ok f => return f
  | .error e => Parse.failAt fun _ => e

/-- Entries until the buffer is used up. The number of steps is bounded by the
bytes, since every entry has a length word. -/
def parseAll : (steps : Nat) → Parse (List FileEntry)
  | 0 => return []
  | steps + 1 => do
    if ← Parse.atEnd then return []
    let f ← parse
    let fs ← parseAll steps
    return f :: fs

def encodeList (fs : List FileEntry) : Bytes := fs.flatMap encode

def decodeList (bs : Bytes) : Except Corruption (List FileEntry) := (parseAll bs.length).value bs

end FileEntry
end Profiler
