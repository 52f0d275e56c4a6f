/-
# Records as bytes

The layout of every kind of record. The length in the header is computed from
the content; a record that is too long for it is stored as a run of pieces,
each a record of its own, closed by an end mark.

Key definitions: `Record.body`, `Record.encode`, `Record.splitForFile`.
-/
import Profiler.Record.Basic

namespace Profiler

open Bytes (whenSelected)

/-- The stored fields of a record's last part. -/
def SampleId.encode (s : SampleId) : Bytes :=
  whenSelected (s.has .tid) (Bytes.u32 s.pid) ++ whenSelected (s.has .tid) (Bytes.u32 s.tid) ++
    whenSelected (s.has .time) (Bytes.u64 s.time) ++
    whenSelected (s.has .id) (Bytes.u64 s.id) ++
    whenSelected (s.has .streamId) (Bytes.u64 s.streamId) ++
    whenSelected (s.has .cpu) (Bytes.u32 s.cpu) ++
    whenSelected (s.has .cpu) (Bytes.u32 s.cpuReserved) ++
    whenSelected (s.has .identifier) (Bytes.u64 s.identifier)

def encodeCounter (fmt : ReadFormat) (c : UInt64 × UInt64) : Bytes :=
  Bytes.u64 c.1 ++ whenSelected (fmt.has .id) (Bytes.u64 c.2)

/-- A reading: a group gives the number of counters first and all of them
last; a single counter, zero if there is none, has its id after the times. -/
def ReadValues.encode (fmt : ReadFormat) (v : ReadValues) : Bytes :=
  let times := whenSelected (fmt.has .timeEnabled) (Bytes.u64 v.timeEnabled) ++
    whenSelected (fmt.has .timeRunning) (Bytes.u64 v.timeRunning)
  if fmt.has .group then
    Bytes.u64 (UInt64.ofNat v.values.length) ++ times ++ v.values.flatMap (encodeCounter fmt)
  else
    let c := v.values.headD (0, 0)
    Bytes.u64 c.1 ++ times ++ whenSelected (fmt.has .id) (Bytes.u64 c.2)

def Branch.encode (b : Branch) : Bytes :=
  Bytes.u64 b.source ++ Bytes.u64 b.target ++ Bytes.u64 b.flags

/-- The ABI word, and the registers unless it is zero. -/
def UserRegs.encode (r : UserRegs) : Bytes :=
  Bytes.u64 r.abi ++ whenSelected (r.abi != 0) (Bytes.u64s r.values)

/-- The length of the stack dump, and unless it is zero the dump and the
number of bytes in use. -/
def UserStack.encode (s : UserStack) : Bytes :=
  Bytes.u64 (UInt64.ofNat s.data.length) ++
    whenSelected (!s.data.isEmpty) (s.data ++ Bytes.u64 s.dynSize)

/-- The stored fields of a sample. -/
def Sample.encode (s : Sample) : Bytes :=
  whenSelected (s.has .identifier) (Bytes.u64 s.identifier) ++
    whenSelected (s.has .ip) (Bytes.u64 s.ip) ++
    whenSelected (s.has .tid) (Bytes.u32 s.pid) ++ whenSelected (s.has .tid) (Bytes.u32 s.tid) ++
    whenSelected (s.has .time) (Bytes.u64 s.time) ++
    whenSelected (s.has .addr) (Bytes.u64 s.addr) ++
    whenSelected (s.has .id) (Bytes.u64 s.id) ++
    whenSelected (s.has .streamId) (Bytes.u64 s.streamId) ++
    whenSelected (s.has .cpu) (Bytes.u32 s.cpu) ++
    whenSelected (s.has .cpu) (Bytes.u32 s.cpuReserved) ++
    whenSelected (s.has .period) (Bytes.u64 s.period) ++
    whenSelected (s.has .read) (s.read.encode s.readFormat) ++
    whenSelected (s.has .callchain)
      (Bytes.u64 (UInt64.ofNat s.callchain.length) ++ Bytes.u64s s.callchain) ++
    whenSelected (s.has .raw) (Bytes.u32 (UInt32.ofNat s.raw.length) ++ s.raw) ++
    whenSelected (s.has .branchStack)
      (Bytes.u64 (UInt64.ofNat s.branchStack.length) ++ s.branchStack.flatMap Branch.encode) ++
    whenSelected (s.has .regsUser) s.userRegs.encode ++
    whenSelected (s.has .stackUser) s.userStack.encode

/-- A blob with its length, padded to an alignment that does not count the
length word. -/
def encodeBlob (data : Bytes) (alignment : Nat) : Bytes :=
  Bytes.u32 (UInt32.ofNat data.length) ++ data.fixed (alignUp data.length alignment)

def MmapRecord.head (r : MmapRecord) : Bytes :=
  Bytes.u32 r.pid ++ Bytes.u32 r.tid ++ Bytes.u64 r.addr ++ Bytes.u64 r.len ++ Bytes.u64 r.pgoff

def Mmap2Record.head (r : Mmap2Record) : Bytes :=
  Bytes.u32 r.pid ++ Bytes.u32 r.tid ++ Bytes.u64 r.addr ++ Bytes.u64 r.len ++ Bytes.u64 r.pgoff ++
    Bytes.u32 r.maj ++ Bytes.u32 r.min ++ Bytes.u64 r.ino ++ Bytes.u64 r.inoGeneration ++
    Bytes.u32 r.prot ++ Bytes.u32 r.flags

def CommRecord.head (r : CommRecord) : Bytes := Bytes.u32 r.pid ++ Bytes.u32 r.tid

def DsoRecord.head (r : DsoRecord) : Bytes := Bytes.u64 r.dsoType ++ Bytes.u64 r.dsoId

def SymbolRecord.head (r : SymbolRecord) : Bytes :=
  Bytes.u64 r.addr ++ Bytes.u64 r.len ++ Bytes.u64 r.dsoId

def TaskRecord.encode (r : TaskRecord) : Bytes :=
  Bytes.u32 r.pid ++ Bytes.u32 r.ppid ++ Bytes.u32 r.tid ++ Bytes.u32 r.ptid ++ Bytes.u64 r.time ++
    r.sampleId.encode

def LostRecord.encode (r : LostRecord) : Bytes :=
  Bytes.u64 r.id ++ Bytes.u64 r.lost ++ r.sampleId.encode

def ThrottleRecord.encode (r : ThrottleRecord) : Bytes :=
  Bytes.u64 r.time ++ Bytes.u64 r.id ++ Bytes.u64 r.streamId ++ r.sampleId.encode

def ReadRecord.encode (r : ReadRecord) : Bytes :=
  Bytes.u32 r.pid ++ Bytes.u32 r.tid ++ r.values.encode r.readFormat ++ r.sampleId.encode

def encodeIdPairs (ids : List (UInt64 × UInt64)) : Bytes :=
  Bytes.u64 (UInt64.ofNat ids.length) ++ ids.flatMap fun p => Bytes.u64 p.1 ++ Bytes.u64 p.2

namespace Record

/-- The fields after the header. -/
def body : Record → Bytes
  | mmap r => r.head ++ Bytes.paddedText r.filename 8 ++ r.sampleId.encode
  | mmap2 r => r.head ++ Bytes.paddedText r.filename 8 ++ r.sampleId.encode
  | comm r => r.head ++ Bytes.paddedText r.comm 8 ++ r.sampleId.encode
  | fork r | exit r => r.encode
  | lost r => r.encode
  | throttle r | unthrottle r => r.encode
  | read r => r.encode
  | sample r => r.encode
  | tracingData data => encodeBlob data 64
  | buildId r => Bytes.u32 r.pid ++ r.buildId.bytes.fixed 24 ++ Bytes.paddedText r.filename 64
  | kernelSymbol kallsyms => encodeBlob kallsyms 8
  | dso r => r.head ++ Bytes.paddedText r.dsoName 8
  | symbol r => r.head ++ Bytes.paddedText r.name 8
  | split data => data
  | splitEnd => []
  | eventIds ids => encodeIdPairs ids
  | unknown r => r.data

/-- Header and fields. A length that does not fit the header is stored as
zero, and such a record has to be split. -/
def encode (r : Record) : Bytes :=
  let body := r.body
  let size := recordHeaderSize + body.length
  Bytes.u32 r.type ++ Bytes.u16 r.misc ++
    Bytes.u16 (if size ≤ maxRecordSize then UInt16.ofNat size else 0) ++ body

/-- The longest piece that is a whole number of words and fits a header. -/
def pieceSize : Nat := (maxRecordSize - recordHeaderSize) / 8 * 8

/-- The record as it is stored: itself, or a run of pieces and the end mark. -/
def splitForFile (r : Record) : List Bytes :=
  let data := r.encode
  if data.length ≤ maxRecordSize then [data]
  else (data.chunks pieceSize).map (fun piece => (split piece).encode) ++ [splitEnd.encode]

end Record
end Profiler
