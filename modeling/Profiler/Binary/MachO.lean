/-
# Mach-O files

A Mach-O file has words of 32 or 64 bits in either byte order. Its header is
followed by load commands: some describe a segment and the sections in it, and
one says where the symbols are. Commands that break off end the list, but one
that is shorter than its kind needs makes the file unreadable.

Key definitions: `MachO.Command`, `MachO.commands`, `MachO.Image`,
`MachO.Image.step`, `MachO.contents`.
-/
import Profiler.Binary.Contents
import Profiler.Binary.Layout
import Profiler.Error

namespace Profiler
namespace Binary
namespace MachO

/-- A load command. -/
structure Command where
  type : Nat
  /-- All of its bytes, from its type on. -/
  bytes : Bytes
  deriving DecidableEq, Repr, Inhabited

/-- The first command and the bytes of those after it. -/
def Command.first? (f : Layout) (bs : Bytes) : Option (Command × Bytes) := do
  let header ← bs.slice? 0 8
  let size := f.numberAt header 4 4
  if size < 8 then none
  let (bytes, rest) ← bs.splitAt? size
  return ({ type := f.numberAt header 0 4, bytes }, rest)

/-- At most so many commands, up to one that breaks off. -/
def commands (f : Layout) : (count : Nat) → Bytes → List Command
  | 0, _ => []
  | count + 1, bs =>
    match Command.first? f bs with
    | some (c, rest) => c :: commands f count rest
    | none => []

/-- The symbols of a file and the strings that hold their names. -/
structure SymbolTable where
  entries : List Bytes := []
  /-- The strings, if they lie inside the file. -/
  strings? : Option Bytes := none
  deriving DecidableEq, Repr, Inhabited

/-- What the commands describe. -/
structure Image where
  segments : List LoadedSegment := []
  /-- For each section, whether it holds the program's code. -/
  codeSections : List Bool := []
  symbols : SymbolTable := {}
  deriving Repr, Inhabited

/-- The type of commands that describe a segment. -/
def segmentType (f : Layout) : Nat := if f.wide then 0x19 else 1

/-- The type of the command that tells where the symbols are. -/
def symbolsType : Nat := 2

def segmentWidths (f : Layout) : List Nat :=
  [4, 4, 16] ++ List.replicate 4 f.word ++ [4, 4, 4, 4]

def sectionSize (f : Layout) : Nat := if f.wide then 80 else 68

/-- The names of the code's section and of the segment that it belongs to. -/
def codeName : Bytes × Bytes := (Utf8.encode "__text", Utf8.encode "__TEXT")

/-- Whether a section holds the program's code, by its name and its segment's. -/
def isCode (entry : Bytes) : Bool :=
  (Bytes.beforeNul (entry.take 16), Bytes.beforeNul ((entry.drop 16).take 16)) == codeName

def symbolSize (f : Layout) : Nat := 8 + f.word

namespace Image

/-- Add a segment and its sections. -/
def addSegment (f : Layout) (image : Image) (c : Command) : Except MachOFault Image := do
  let size := entrySize (segmentWidths f)
  if c.bytes.length < size then throw .commandSize
  let l := f.numbers (segmentWidths f) c.bytes
  let some entries := table? c.bytes size (sectionSize f) (l.getD 9 0) | throw .sectionCount
  return { image with
    segments := image.segments ++ [loadedSegment (l.getD 5 0) (l.getD 6 0) (l.getD 3 0)]
    codeSections := image.codeSections ++ entries.map isCode }

def readSymbols (f : Layout) (bs : Bytes) (c : Command) : Except MachOFault SymbolTable := do
  if c.bytes.length < 24 then throw .commandSize
  let l := f.numbers [4, 4, 4, 4] (c.bytes.drop 8)
  let some entries := table? bs (l.getD 0 0) (symbolSize f) (l.getD 1 0) | throw .symbols
  return { entries, strings? := bs.slice? (l.getD 2 0) (l.getD 3 0) }

def step (f : Layout) (bs : Bytes) (image : Image) (c : Command) : Except MachOFault Image :=
  if c.type = segmentType f then image.addSegment f c
  else if c.type = symbolsType then do return { image with symbols := ← readSymbols f bs c }
  else .ok image

/-- The function of a symbol: it is no note for debuggers, and it is in a
section that holds code. Symbols tell no lengths. -/
def function? (f : Layout) (image : Image) (entry : Bytes) : Option Symbol :=
  let l := f.numbers [4, 1, 1, 2, f.word] entry
  let type := l.getD 1 0
  let home := l.getD 2 0
  if type / 32 = 0 ∧ type / 2 % 8 = 7 ∧ home ≠ 0 ∧ image.codeSections[home - 1]? = some true then
    namedFunction? (l.getD 4 0) 0 (do nameAt? (← image.symbols.strings?) (l.getD 0 0))
  else none

end Image

def headerSize (wide : Bool) : Nat := if wide then 32 else 28

/-- What a file holds whose words have 64 bits or not. -/
def contents (wide : Bool) (bs : Bytes) : Except MachOFault Contents := do
  let some header := bs.slice? 0 (headerSize wide) | throw .header
  let f : Layout := { wide, bigEndian := header.head? == some 0xfe }
  let commandBytes := (bs.slice? (headerSize wide) (f.numberAt header 20 4)).getD []
  let image ← (commands f (f.numberAt header 16 4) commandBytes).foldlM (Image.step f bs) {}
  return { segments := image.segments
           functions := image.symbols.entries.filterMap (image.function? f) }

end MachO
end Binary
end Profiler
