/-
# Event attributes

An attr tells the kernel what an event is and what its samples carry, in the
layout of `perf_event_attr`. The fields that are sets of bits have their
members as types: `SampleField` for what a sample carries, `ReadField` for
what a counter reading holds, `AttrFlag` for switches.

Key definitions: `SampleField`, `ReadField`, `AttrFlag`, `Attr`,
`Attr.encode`, `Attr.decode`.
-/
import Profiler.Bytes.Cursor

namespace Profiler

/-- A field that a sample may carry. -/
inductive SampleField where
  | ip
  | tid
  | time
  | addr
  | read
  | callchain
  | id
  | cpu
  | period
  | streamId
  | raw
  | branchStack
  | regsUser
  | stackUser
  | identifier
  deriving DecidableEq, Repr

/-- A set of sample fields. -/
abbrev SampleMask := UInt64

namespace SampleField

/-- The bit that selects the field. -/
def mask : SampleField → SampleMask
  | ip => 0x1
  | tid => 0x2
  | time => 0x4
  | addr => 0x8
  | read => 0x10
  | callchain => 0x20
  | id => 0x40
  | cpu => 0x80
  | period => 0x100
  | streamId => 0x200
  | raw => 0x400
  | branchStack => 0x800
  | regsUser => 0x1000
  | stackUser => 0x2000
  | identifier => 0x10000

/-- Every field, in the order of the bits. -/
def all : List SampleField :=
  [ip, tid, time, addr, read, callchain, id, cpu, period, streamId, raw, branchStack, regsUser,
    stackUser, identifier]

def name : SampleField → String
  | ip => "ip"
  | tid => "tid"
  | time => "time"
  | addr => "addr"
  | read => "read"
  | callchain => "callchain"
  | id => "id"
  | cpu => "cpu"
  | period => "period"
  | streamId => "stream_id"
  | raw => "raw"
  | branchStack => "branch_stack"
  | regsUser => "regs_user"
  | stackUser => "stack_user"
  | identifier => "identifier"

end SampleField

def SampleMask.has (m : SampleMask) (f : SampleField) : Bool := m &&& f.mask != 0

def SampleMask.of (fs : List SampleField) : SampleMask := fs.foldl (· ||| ·.mask) 0

/-- The names of the fields of a set, joined by bars. -/
def SampleMask.describe (m : SampleMask) : String :=
  "|".intercalate ((SampleField.all.filter m.has).map SampleField.name)

/-- What a counter reading holds beside the value. -/
inductive ReadField where
  | timeEnabled
  | timeRunning
  | id
  /-- The values of the whole group. -/
  | group
  deriving DecidableEq, Repr

/-- A set of read fields. -/
abbrev ReadFormat := UInt64

def ReadField.mask : ReadField → ReadFormat
  | timeEnabled => 0x1
  | timeRunning => 0x2
  | id => 0x4
  | group => 0x8

def ReadFormat.has (m : ReadFormat) (f : ReadField) : Bool := m &&& f.mask != 0

/-- A switch of an attr. -/
inductive AttrFlag where
  | disabled
  | inherit
  | excludeUser
  | excludeKernel
  | excludeHv
  | mmap
  | comm
  | freq
  | enableOnExec
  | watermark
  | sampleIdAll
  | excludeHost
  | excludeGuest
  | excludeCallchainUser
  | mmap2
  deriving DecidableEq, Repr

namespace AttrFlag

/-- The bit of the switch in the flags word. -/
def mask : AttrFlag → UInt64
  | disabled => 0x1
  | inherit => 0x2
  | excludeUser => 0x10
  | excludeKernel => 0x20
  | excludeHv => 0x40
  | mmap => 0x100
  | comm => 0x200
  | freq => 0x400
  | enableOnExec => 0x1000
  | watermark => 0x4000
  | sampleIdAll => 0x40000
  | excludeHost => 0x80000
  | excludeGuest => 0x100000
  | excludeCallchainUser => 0x400000
  | mmap2 => 0x800000

/-- Every switch, in the order of the bits. -/
def all : List AttrFlag :=
  [disabled, inherit, excludeUser, excludeKernel, excludeHv, mmap, comm, freq, enableOnExec,
    watermark, sampleIdAll, excludeHost, excludeGuest, excludeCallchainUser, mmap2]

def name : AttrFlag → String
  | disabled => "disabled"
  | inherit => "inherit"
  | excludeUser => "exclude_user"
  | excludeKernel => "exclude_kernel"
  | excludeHv => "exclude_hv"
  | mmap => "mmap"
  | comm => "comm"
  | freq => "freq"
  | enableOnExec => "enable_on_exec"
  | watermark => "watermark"
  | sampleIdAll => "sample_id_all"
  | excludeHost => "exclude_host"
  | excludeGuest => "exclude_guest"
  | excludeCallchainUser => "exclude_callchain_user"
  | mmap2 => "mmap2"

def ofName? (s : String) : Option AttrFlag := all.find? (·.name == s)

end AttrFlag

/-- What an event is and how it is sampled. -/
structure Attr where
  type : UInt32 := 0
  /-- Bytes of the attr that the writer of it knew. -/
  size : UInt32 := 0
  config : UInt64 := 0
  samplePeriodOrFreq : UInt64 := 0
  sampleType : SampleMask := 0
  readFormat : ReadFormat := 0
  flags : UInt64 := 0
  wakeup : UInt32 := 0
  bpType : UInt32 := 0
  config1 : UInt64 := 0
  config2 : UInt64 := 0
  branchSampleType : UInt64 := 0
  sampleRegsUser : UInt64 := 0
  sampleStackUser : UInt32 := 0
  clockId : Int32 := 0
  sampleRegsIntr : UInt64 := 0
  auxWatermark : UInt32 := 0
  sampleMaxStack : UInt16 := 0
  reserved2 : UInt16 := 0
  auxSampleSize : UInt32 := 0
  reserved3 : UInt32 := 0
  deriving DecidableEq, Repr, Inhabited

namespace Attr

/-- The bytes of an attr as this library writes it. -/
def byteSize : Nat := 120

def empty : Attr := { size := 120 }

def has (a : Attr) (f : AttrFlag) : Bool := a.flags &&& f.mask != 0

def set (a : Attr) (f : AttrFlag) (on : Bool) : Attr :=
  { a with flags := if on then a.flags ||| f.mask else a.flags &&& ~~~f.mask }

/-- The two bits of the flags that hold the precision level. -/
def precisionMask : UInt64 := 0x18000

/-- How close to the event the sampled address must be, from 0 to 3. -/
def preciseIp (a : Attr) : UInt8 := ((a.flags &&& precisionMask) >>> 15).toUInt8

/-- Levels above 3 count as 3. -/
def setPreciseIp (a : Attr) (level : UInt8) : Attr :=
  let level := if level > 3 then 3 else level
  { a with flags :=
      (a.flags &&& ~~~precisionMask) ||| ((level.toUInt64 <<< 15) &&& precisionMask) }

def setSampleFreq (a : Attr) (freq : UInt64) : Attr :=
  { a.set .freq true with samplePeriodOrFreq := freq }

def setSamplePeriod (a : Attr) (period : UInt64) : Attr :=
  { a.set .freq false with samplePeriodOrFreq := period }

def addSampleFields (a : Attr) (fs : List SampleField) : Attr :=
  { a with sampleType := a.sampleType ||| SampleMask.of fs }

def hasSample (a : Attr) (m : SampleMask) : Bool := a.sampleType &&& m != 0

/-- The kernel's layout. -/
def encode (a : Attr) : Bytes :=
  Bytes.u32 a.type ++ Bytes.u32 a.size ++ Bytes.u64 a.config ++ Bytes.u64 a.samplePeriodOrFreq ++
    Bytes.u64 a.sampleType ++ Bytes.u64 a.readFormat ++ Bytes.u64 a.flags ++ Bytes.u32 a.wakeup ++
    Bytes.u32 a.bpType ++ Bytes.u64 a.config1 ++ Bytes.u64 a.config2 ++
    Bytes.u64 a.branchSampleType ++ Bytes.u64 a.sampleRegsUser ++ Bytes.u32 a.sampleStackUser ++
    Bytes.u32 a.clockId.toUInt32 ++ Bytes.u64 a.sampleRegsIntr ++ Bytes.u32 a.auxWatermark ++
    Bytes.u16 a.sampleMaxStack ++ Bytes.u16 a.reserved2 ++ Bytes.u32 a.auxSampleSize ++
    Bytes.u32 a.reserved3

/-- Read the fields in the order of the layout. -/
def parse : Parse Attr := do
  return {
    type := ← Parse.u32
    size := ← Parse.u32
    config := ← Parse.u64
    samplePeriodOrFreq := ← Parse.u64
    sampleType := ← Parse.u64
    readFormat := ← Parse.u64
    flags := ← Parse.u64
    wakeup := ← Parse.u32
    bpType := ← Parse.u32
    config1 := ← Parse.u64
    config2 := ← Parse.u64
    branchSampleType := ← Parse.u64
    sampleRegsUser := ← Parse.u64
    sampleStackUser := ← Parse.u32
    clockId := (← Parse.u32).toInt32
    sampleRegsIntr := ← Parse.u64
    auxWatermark := ← Parse.u32
    sampleMaxStack := ← Parse.u16
    reserved2 := ← Parse.u16
    auxSampleSize := ← Parse.u32
    reserved3 := ← Parse.u32 }

/-- An attr may come from an older or a newer kernel: fields that are missing
are zero and bytes beyond the last field do not count. -/
def decode (bs : Bytes) : Except Corruption Attr :=
  if bs.length < 8 then .error (.shortAttr bs.length) else parse.value (bs.fixed byteSize)

end Attr

/-- The user registers that are captured for unwinding: those of x86-64
without the segment registers DS, ES, FS and GS, which the kernel refuses. -/
def userRegisters : UInt64 := 0xff0fff

end Profiler
