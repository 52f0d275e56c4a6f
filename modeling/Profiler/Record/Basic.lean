/-
# Records of the sample stream

A record tells of one event in the life of the recorded system: a mapping, a
name, a thread's birth or end, a sample. The kernel makes most of them; some
are written by the recorder itself, in the same layout and under type numbers
of their own. Every kind has a structure; `RecordKind` names the kinds and
their numbers.

Key definitions: `RecordKind`, `SampleId`, `Sample`, `Record`, `Record.type`,
`Record.timestamp`, `Record.eventId`.
-/
import Profiler.Attr
import Profiler.BuildId

namespace Profiler

/-- The kinds of record that are understood. -/
inductive RecordKind where
  | mmap
  | lost
  | comm
  | exit
  | throttle
  | unthrottle
  | fork
  | read
  | sample
  | mmap2
  | tracingData
  | buildId
  | kernelSymbol
  | dso
  | symbol
  | split
  | splitEnd
  | eventId
  deriving DecidableEq, Repr

namespace RecordKind

/-- The number in the header of a record of this kind. -/
def code : RecordKind → UInt32
  | mmap => 1
  | lost => 2
  | comm => 3
  | exit => 4
  | throttle => 5
  | unthrottle => 6
  | fork => 7
  | read => 8
  | sample => 9
  | mmap2 => 10
  | tracingData => 66
  | buildId => 67
  | kernelSymbol => 32769
  | dso => 32770
  | symbol => 32771
  | split => 32772
  | splitEnd => 32773
  | eventId => 32774

def all : List RecordKind :=
  [mmap, lost, comm, exit, throttle, unthrottle, fork, read, sample, mmap2, tracingData, buildId,
    kernelSymbol, dso, symbol, split, splitEnd, eventId]

/-- The kind with a number, if it is understood. -/
def ofCode? (n : UInt32) : Option RecordKind := all.find? (·.code == n)

theorem ofCode?_code (k : RecordKind) : ofCode? k.code = some k := by cases k <;> decide

def name : RecordKind → String
  | mmap => "mmap"
  | lost => "lost"
  | comm => "comm"
  | exit => "exit"
  | throttle => "throttle"
  | unthrottle => "unthrottle"
  | fork => "fork"
  | read => "read"
  | sample => "sample"
  | mmap2 => "mmap2"
  | tracingData => "tracing_data"
  | buildId => "build_id"
  | kernelSymbol => "kernel_symbol"
  | dso => "dso"
  | symbol => "symbol"
  | split => "split"
  | splitEnd => "split_end"
  | eventId => "event_id"

end RecordKind

/-- Numbers from here on are never given by the kernel. -/
def firstUserDefinedType : UInt32 := 64

/-- The longest record whose length fits its header. -/
def maxRecordSize : Nat := 65535

/-- The bytes before a record's fields. -/
def recordHeaderSize : Nat := 8

/-- What stands before a record's fields. -/
structure RecordHeader where
  type : UInt32
  misc : UInt16
  size : UInt16
  deriving DecidableEq, Repr

def kernelMode : UInt16 := 1

def userMode : UInt16 := 2

def isKernelMode (misc : UInt16) : Bool := misc &&& 7 == kernelMode

/-- Where and when a record that is no sample was made: the fields of its last
part, which is there when the attr has `sampleIdAll` and whose shape is
decided by the attr's sample type. -/
structure SampleId where
  sampleIdAll : Bool := false
  sampleType : SampleMask := 0
  pid : UInt32 := 0
  tid : UInt32 := 0
  time : UInt64 := 0
  id : UInt64 := 0
  streamId : UInt64 := 0
  cpu : UInt32 := 0
  cpuReserved : UInt32 := 0
  identifier : UInt64 := 0
  deriving DecidableEq, Repr, Inhabited

namespace SampleId

/-- The part as an attr shapes it, with nothing filled in. -/
def ofAttr (a : Attr) : SampleId :=
  { sampleIdAll := a.has .sampleIdAll, sampleType := a.sampleType }

def has (s : SampleId) (f : SampleField) : Bool := s.sampleIdAll && s.sampleType.has f

def eventId (s : SampleId) : Option UInt64 :=
  if s.has .identifier then some s.identifier else if s.has .id then some s.id else none

end SampleId

/-- A stretch of address space was mapped from a file. -/
structure MmapRecord where
  misc : UInt16 := 0
  pid : UInt32 := 0
  tid : UInt32 := 0
  addr : UInt64 := 0
  len : UInt64 := 0
  pgoff : UInt64 := 0
  filename : String := ""
  sampleId : SampleId := {}
  deriving DecidableEq, Repr, Inhabited

/-- The same with the file's identity and the protection. -/
structure Mmap2Record where
  misc : UInt16 := 0
  pid : UInt32 := 0
  tid : UInt32 := 0
  addr : UInt64 := 0
  len : UInt64 := 0
  pgoff : UInt64 := 0
  maj : UInt32 := 0
  min : UInt32 := 0
  ino : UInt64 := 0
  inoGeneration : UInt64 := 0
  prot : UInt32 := 0
  flags : UInt32 := 0
  filename : String := ""
  sampleId : SampleId := {}
  deriving DecidableEq, Repr, Inhabited

/-- A thread took a name. -/
structure CommRecord where
  misc : UInt16 := 0
  pid : UInt32 := 0
  tid : UInt32 := 0
  comm : String := ""
  sampleId : SampleId := {}
  deriving DecidableEq, Repr, Inhabited

/-- A thread began or ended. -/
structure TaskRecord where
  misc : UInt16 := 0
  pid : UInt32 := 0
  ppid : UInt32 := 0
  tid : UInt32 := 0
  ptid : UInt32 := 0
  time : UInt64 := 0
  sampleId : SampleId := {}
  deriving DecidableEq, Repr, Inhabited

/-- Records were dropped for want of space. -/
structure LostRecord where
  misc : UInt16 := 0
  id : UInt64 := 0
  lost : UInt64 := 0
  sampleId : SampleId := {}
  deriving DecidableEq, Repr, Inhabited

/-- Sampling was held back or let go again. -/
structure ThrottleRecord where
  misc : UInt16 := 0
  time : UInt64 := 0
  id : UInt64 := 0
  streamId : UInt64 := 0
  sampleId : SampleId := {}
  deriving DecidableEq, Repr, Inhabited

/-- A reading of counters. -/
structure ReadValues where
  timeEnabled : UInt64 := 0
  timeRunning : UInt64 := 0
  /-- A value and an id for each counter; one unless the format asks for the
  group. -/
  values : List (UInt64 × UInt64) := []
  deriving DecidableEq, Repr, Inhabited

/-- Counters were read when a thread ended. -/
structure ReadRecord where
  misc : UInt16 := 0
  pid : UInt32 := 0
  tid : UInt32 := 0
  readFormat : ReadFormat := 0
  values : ReadValues := {}
  sampleId : SampleId := {}
  deriving DecidableEq, Repr, Inhabited

/-- A branch that was taken. -/
structure Branch where
  source : UInt64 := 0
  target : UInt64 := 0
  flags : UInt64 := 0
  deriving DecidableEq, Repr, Inhabited

/-- The user registers at a sample, none when the ABI word is zero. -/
structure UserRegs where
  abi : UInt64 := 0
  mask : UInt64 := 0
  values : List UInt64 := []
  deriving DecidableEq, Repr, Inhabited

/-- The user stack at a sample, and how much of it was in use. -/
structure UserStack where
  data : Bytes := []
  dynSize : UInt64 := 0
  deriving DecidableEq, Repr, Inhabited

/-- A sample. Only the fields of its sample type mean something. -/
structure Sample where
  misc : UInt16 := 0
  sampleType : SampleMask := 0
  readFormat : ReadFormat := 0
  identifier : UInt64 := 0
  ip : UInt64 := 0
  pid : UInt32 := 0
  tid : UInt32 := 0
  time : UInt64 := 0
  addr : UInt64 := 0
  id : UInt64 := 0
  streamId : UInt64 := 0
  cpu : UInt32 := 0
  cpuReserved : UInt32 := 0
  period : UInt64 := 0
  read : ReadValues := {}
  callchain : List UInt64 := []
  raw : Bytes := []
  branchStack : List Branch := []
  userRegs : UserRegs := {}
  userStack : UserStack := {}
  deriving DecidableEq, Repr, Inhabited

namespace Sample

/-- A sample as an attr shapes it, with nothing filled in. -/
def ofAttr (a : Attr) : Sample :=
  { sampleType := a.sampleType, readFormat := a.readFormat
    userRegs := { mask := a.sampleRegsUser } }

def has (s : Sample) (f : SampleField) : Bool := s.sampleType.has f

def inKernel (s : Sample) : Bool := isKernelMode s.misc

/-- The id of the event, from the identifier if it is stored. -/
def eventId (s : Sample) : Option UInt64 :=
  if s.has .identifier then some s.identifier else if s.has .id then some s.id else none

end Sample

/-- The build id of a binary. -/
structure BuildIdRecord where
  misc : UInt16 := 0
  pid : UInt32 := 0
  buildId : BuildId := default
  filename : String := ""
  deriving DecidableEq, Repr, Inhabited

/-- A binary that symbols belong to. -/
structure DsoRecord where
  dsoType : UInt64 := 0
  dsoId : UInt64 := 0
  dsoName : String := ""
  deriving DecidableEq, Repr, Inhabited

/-- A symbol of a binary. -/
structure SymbolRecord where
  addr : UInt64 := 0
  len : UInt64 := 0
  dsoId : UInt64 := 0
  name : String := ""
  deriving DecidableEq, Repr, Inhabited

/-- A record of a kind that is not understood, kept as it is. -/
structure UnknownRecord where
  type : UInt32 := 0
  misc : UInt16 := 0
  data : Bytes := []
  deriving DecidableEq, Repr, Inhabited

/-- One record. -/
inductive Record where
  | mmap (r : MmapRecord)
  | mmap2 (r : Mmap2Record)
  | comm (r : CommRecord)
  | exit (r : TaskRecord)
  | fork (r : TaskRecord)
  | lost (r : LostRecord)
  | throttle (r : ThrottleRecord)
  | unthrottle (r : ThrottleRecord)
  | read (r : ReadRecord)
  | sample (r : Sample)
  | tracingData (data : Bytes)
  | buildId (r : BuildIdRecord)
  /-- The kernel's symbol table as text. -/
  | kernelSymbol (kallsyms : Bytes)
  | dso (r : DsoRecord)
  | symbol (r : SymbolRecord)
  /-- A piece of a record that is too long for one header. -/
  | split (data : Bytes)
  | splitEnd
  /-- Event ids that came into being after recording began, each with the
  index of its attr. -/
  | eventIds (ids : List (UInt64 × UInt64))
  | unknown (r : UnknownRecord)
  deriving DecidableEq, Repr

instance : Inhabited Record := ⟨.splitEnd⟩

namespace Record

/-- The kind, for a record that is understood. -/
def kind? : Record → Option RecordKind
  | mmap _ => some .mmap
  | mmap2 _ => some .mmap2
  | comm _ => some .comm
  | exit _ => some .exit
  | fork _ => some .fork
  | lost _ => some .lost
  | throttle _ => some .throttle
  | unthrottle _ => some .unthrottle
  | read _ => some .read
  | sample _ => some .sample
  | tracingData _ => some .tracingData
  | buildId _ => some .buildId
  | kernelSymbol _ => some .kernelSymbol
  | dso _ => some .dso
  | symbol _ => some .symbol
  | split _ => some .split
  | splitEnd => some .splitEnd
  | eventIds _ => some .eventId
  | unknown _ => none

/-- The number in the header. -/
def type (r : Record) : UInt32 :=
  match r with
  | unknown u => u.type
  | r => match r.kind? with
    | some k => k.code
    | none => 0

def typeName (r : Record) : String :=
  match r.kind? with
  | some k => k.name
  | none => "unknown"

/-- The misc bits of the header, zero for records that do not keep them. -/
def misc : Record → UInt16
  | mmap r => r.misc
  | mmap2 r => r.misc
  | comm r => r.misc
  | exit r | fork r => r.misc
  | lost r => r.misc
  | throttle r | unthrottle r => r.misc
  | read r => r.misc
  | sample r => r.misc
  | buildId r => r.misc
  | unknown r => r.misc
  | _ => 0

/-- The last part, for the kinds that have one. -/
def sampleId? : Record → Option SampleId
  | mmap r => some r.sampleId
  | mmap2 r => some r.sampleId
  | comm r => some r.sampleId
  | exit r | fork r => some r.sampleId
  | lost r => some r.sampleId
  | throttle r | unthrottle r => some r.sampleId
  | read r => some r.sampleId
  | _ => none

def isSample : Record → Bool
  | sample _ => true
  | _ => false

/-- When the record was made, zero when it does not say. -/
def timestamp : Record → UInt64
  | sample s => s.time
  | r => match r.sampleId? with
    | some s => s.time
    | none => 0

/-- The cpu the record was made on, zero when it does not say. -/
def cpu : Record → UInt32
  | sample s => s.cpu
  | r => match r.sampleId? with
    | some s => s.cpu
    | none => 0

def eventId : Record → Option UInt64
  | sample s => s.eventId
  | r => r.sampleId?.bind SampleId.eventId

/-- The process that the record is about, when it names one. -/
def pid? : Record → Option UInt32
  | mmap r => some r.pid
  | mmap2 r => some r.pid
  | comm r => some r.pid
  | exit r | fork r => some r.pid
  | read r => some r.pid
  | sample s => some s.pid
  | buildId r => some r.pid
  | _ => none

/-- The thread that the record is about, when it names one. -/
def tid? : Record → Option UInt32
  | mmap r => some r.tid
  | mmap2 r => some r.tid
  | comm r => some r.tid
  | exit r | fork r => some r.tid
  | read r => some r.tid
  | sample s => some s.tid
  | _ => none

end Record
end Profiler
