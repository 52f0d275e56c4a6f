/-
# Bytes as records

The attr of the event that made a record decides which fields a sample has and
whether other records have a last part. Every field is read through a cursor,
so that a truncated record, or one that lies about a count, is a `Corruption`;
and a record must be used up to its last byte.

Key definitions: `Record.parseBody`, `Record.decode`,
`Record.decodeReassembled`, `RecordHeader.decode`.
-/
import Profiler.Record.Basic

namespace Profiler

open Parse (u16 u32 u64 u64s take takeRest skip paddedText whenSelected)

def RecordHeader.parse : Parse RecordHeader := do
  return { type := ← u32, misc := ← u16, size := ← u16 }

def RecordHeader.decode (bs : Bytes) : Except Corruption RecordHeader := RecordHeader.parse.value bs

/-- The last part of a record, as the attr shapes it. -/
def SampleId.parse (a : Attr) : Parse SampleId := do
  let s := SampleId.ofAttr a
  return { s with
    pid := ← whenSelected (s.has .tid) u32 0
    tid := ← whenSelected (s.has .tid) u32 0
    time := ← whenSelected (s.has .time) u64 0
    id := ← whenSelected (s.has .id) u64 0
    streamId := ← whenSelected (s.has .streamId) u64 0
    cpu := ← whenSelected (s.has .cpu) u32 0
    cpuReserved := ← whenSelected (s.has .cpu) u32 0
    identifier := ← whenSelected (s.has .identifier) u64 0 }

def parseCounter (fmt : ReadFormat) : Parse (UInt64 × UInt64) := do
  let value ← u64
  let id ← whenSelected (fmt.has .id) u64 0
  return (value, id)

/-- A reading, laid out by its format. -/
def ReadValues.parse (fmt : ReadFormat) : Parse ReadValues := do
  if fmt.has .group then
    let count ← u64
    let timeEnabled ← whenSelected (fmt.has .timeEnabled) u64 0
    let timeRunning ← whenSelected (fmt.has .timeRunning) u64 0
    let values ← Parse.times (parseCounter fmt) count.toNat
    return { timeEnabled, timeRunning, values }
  else
    let value ← u64
    let timeEnabled ← whenSelected (fmt.has .timeEnabled) u64 0
    let timeRunning ← whenSelected (fmt.has .timeRunning) u64 0
    let id ← whenSelected (fmt.has .id) u64 0
    return { timeEnabled, timeRunning, values := [(value, id)] }

/-- A reading as the kernel gives it; bytes after it do not count. -/
def ReadValues.decode (fmt : ReadFormat) (bs : Bytes) : Except Corruption ReadValues :=
  (ReadValues.parse fmt).value bs

def popCount (v : UInt64) : Nat := (List.range 64).countP v.toNat.testBit

/-- The words of an array of `count` entries of `width` words each, unless
their number does not fit a word. -/
def parseTable (width : Nat) (tooMany : Nat → Corruption) : Parse (List UInt64) := do
  let count ← u64
  if count.toNat * width < UInt64.size then u64s (count.toNat * width)
  else Parse.failAt fun _ => tooMany count.toNat

/-- Words taken three at a time. -/
def branchesOf : List UInt64 → List Branch
  | source :: target :: flags :: rest => ⟨source, target, flags⟩ :: branchesOf rest
  | _ => []

/-- Words taken two at a time. -/
def pairsOf : List UInt64 → List (UInt64 × UInt64)
  | a :: b :: rest => (a, b) :: pairsOf rest
  | _ => []

def parseBranches : Parse (List Branch) := branchesOf <$> parseTable 3 .branchCount

def parseIdPairs : Parse (List (UInt64 × UInt64)) := pairsOf <$> parseTable 2 .eventIdCount

/-- One register for each bit of the mask, none when the ABI word is zero. -/
def UserRegs.parse (mask : UInt64) : Parse UserRegs := do
  let abi ← u64
  let values ← whenSelected (abi != 0) (u64s (popCount mask)) []
  return { abi, mask, values }

def UserStack.parse : Parse UserStack := do
  let size ← u64
  if size = 0 then return {}
  let data ← take size.toNat
  let dynSize ← u64
  return { data, dynSize }

/-- The stored fields of a sample, as the attr shapes it. -/
def Sample.parse (a : Attr) (misc : UInt16) : Parse Sample := do
  let s := Sample.ofAttr a
  return { s with
    misc
    identifier := ← whenSelected (s.has .identifier) u64 0
    ip := ← whenSelected (s.has .ip) u64 0
    pid := ← whenSelected (s.has .tid) u32 0
    tid := ← whenSelected (s.has .tid) u32 0
    time := ← whenSelected (s.has .time) u64 0
    addr := ← whenSelected (s.has .addr) u64 0
    id := ← whenSelected (s.has .id) u64 0
    streamId := ← whenSelected (s.has .streamId) u64 0
    cpu := ← whenSelected (s.has .cpu) u32 0
    cpuReserved := ← whenSelected (s.has .cpu) u32 0
    period := ← whenSelected (s.has .period) u64 0
    read := ← whenSelected (s.has .read) (ReadValues.parse s.readFormat) {}
    callchain := ← whenSelected (s.has .callchain) (do u64s (← u64).toNat) []
    raw := ← whenSelected (s.has .raw) (do take (← u32).toNat) []
    branchStack := ← whenSelected (s.has .branchStack) parseBranches []
    userRegs := ← whenSelected (s.has .regsUser) (UserRegs.parse s.userRegs.mask) s.userRegs
    userStack := ← whenSelected (s.has .stackUser) UserStack.parse {} }

def parseBlob (alignment : Nat) : Parse Bytes := do
  let size := (← u32).toNat
  let data ← take size
  skip (alignUp size alignment - size)
  return data

def MmapRecord.parse (a : Attr) (misc : UInt16) : Parse MmapRecord := do
  return {
    misc
    pid := ← u32
    tid := ← u32
    addr := ← u64
    len := ← u64
    pgoff := ← u64
    filename := ← paddedText 8
    sampleId := ← SampleId.parse a }

def Mmap2Record.parse (a : Attr) (misc : UInt16) : Parse Mmap2Record := do
  return {
    misc
    pid := ← u32
    tid := ← u32
    addr := ← u64
    len := ← u64
    pgoff := ← u64
    maj := ← u32
    min := ← u32
    ino := ← u64
    inoGeneration := ← u64
    prot := ← u32
    flags := ← u32
    filename := ← paddedText 8
    sampleId := ← SampleId.parse a }

def CommRecord.parse (a : Attr) (misc : UInt16) : Parse CommRecord := do
  return { misc, pid := ← u32, tid := ← u32, comm := ← paddedText 8, sampleId := ← SampleId.parse a }

def TaskRecord.parse (a : Attr) (misc : UInt16) : Parse TaskRecord := do
  return {
    misc
    pid := ← u32
    ppid := ← u32
    tid := ← u32
    ptid := ← u32
    time := ← u64
    sampleId := ← SampleId.parse a }

def LostRecord.parse (a : Attr) (misc : UInt16) : Parse LostRecord := do
  return { misc, id := ← u64, lost := ← u64, sampleId := ← SampleId.parse a }

def ThrottleRecord.parse (a : Attr) (misc : UInt16) : Parse ThrottleRecord := do
  return { misc, time := ← u64, id := ← u64, streamId := ← u64, sampleId := ← SampleId.parse a }

def ReadRecord.parse (a : Attr) (misc : UInt16) : Parse ReadRecord := do
  return {
    misc
    pid := ← u32
    tid := ← u32
    readFormat := a.readFormat
    values := ← ReadValues.parse a.readFormat
    sampleId := ← SampleId.parse a }

/-- A build id in its field, which it does not fill. -/
def BuildId.parse : Parse BuildId := BuildId.ofBytes <$> take 24

def BuildIdRecord.parse (misc : UInt16) : Parse BuildIdRecord := do
  return { misc, pid := ← u32, buildId := ← BuildId.parse, filename := ← paddedText 64 }

def DsoRecord.parse : Parse DsoRecord := do
  return { dsoType := ← u64, dsoId := ← u64, dsoName := ← paddedText 8 }

def SymbolRecord.parse : Parse SymbolRecord := do
  return { addr := ← u64, len := ← u64, dsoId := ← u64, name := ← paddedText 8 }

namespace Record

/-- The fields after the header. -/
def parseBody (a : Attr) (h : RecordHeader) : Parse Record :=
  match RecordKind.ofCode? h.type with
  | some .mmap => mmap <$> MmapRecord.parse a h.misc
  | some .mmap2 => mmap2 <$> Mmap2Record.parse a h.misc
  | some .comm => comm <$> CommRecord.parse a h.misc
  | some .fork => fork <$> TaskRecord.parse a h.misc
  | some .exit => exit <$> TaskRecord.parse a h.misc
  | some .lost => lost <$> LostRecord.parse a h.misc
  | some .throttle => throttle <$> ThrottleRecord.parse a h.misc
  | some .unthrottle => unthrottle <$> ThrottleRecord.parse a h.misc
  | some .read => read <$> ReadRecord.parse a h.misc
  | some .sample => sample <$> Sample.parse a h.misc
  | some .tracingData => tracingData <$> parseBlob 64
  | some .buildId => buildId <$> BuildIdRecord.parse h.misc
  | some .kernelSymbol => kernelSymbol <$> parseBlob 8
  | some .dso => dso <$> DsoRecord.parse
  | some .symbol => symbol <$> SymbolRecord.parse
  | some .split => split <$> takeRest
  | some .splitEnd => pure splitEnd
  | some .eventId => eventIds <$> parseIdPairs
  | none => (fun data => unknown { type := h.type, misc := h.misc, data }) <$> takeRest

/-- Decode the bytes after the header and insist that none is left over. -/
def decodeBody (a : Attr) (h : RecordHeader) (body : Bytes) : Except Corruption Record := do
  let (r, c) ← (parseBody a h).run (Cursor.start body)
  if c.rest.isEmpty then return r
  else throw (.recordTail c.rest.length h.type.toNat)

/-- Decode a record that was put together from pieces: it is as long as its
bytes, whatever its header says. -/
def decodeReassembled (a : Attr) (bs : Bytes) : Except Corruption Record := do
  let h ← RecordHeader.decode bs
  decodeBody a h (bs.drop recordHeaderSize)

def decode (a : Attr) (bs : Bytes) : Except Corruption Record := do
  let h ← RecordHeader.decode bs
  if h.size.toNat ≠ bs.length then
    throw (.recordLength h.type.toNat h.size.toNat bs.length)
  decodeBody a h (bs.drop recordHeaderSize)

end Record
end Profiler
