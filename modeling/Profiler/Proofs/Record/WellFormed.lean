/-
# Records that their encoding keeps

A record is stored without loss when it agrees with its attr: it carries what
the attr selects, has zeros where the attr selects nothing, and its texts can
be ended by a NUL. `Record.WellFormed` states that for every kind of record.

The number of entries of a list is stored in a word, which every list in memory
meets (`Record.CountsFit`); a record whose encoding has a length that is a word
meets it too.

Key definitions: `SampleId.WellFormed`, `ReadValues.WellFormed`,
`Sample.WellFormed`, `Record.Shaped`, `Record.WellFormed`, `Record.CountsFit`.
-/
import Mathlib.Tactic.MkIffOfInductiveProp
import Profiler.Record.Decode

namespace Profiler

/-- The part carries what the attr says of it, and zeros where nothing is
stored. -/
@[mk_iff]
structure SampleId.WellFormed (a : Attr) (s : SampleId) : Prop where
  sampleIdAll : s.sampleIdAll = a.has .sampleIdAll
  sampleType : s.sampleType = a.sampleType
  pid : s.has .tid = false → s.pid = 0
  tid : s.has .tid = false → s.tid = 0
  time : s.has .time = false → s.time = 0
  id : s.has .id = false → s.id = 0
  streamId : s.has .streamId = false → s.streamId = 0
  cpu : s.has .cpu = false → s.cpu = 0
  cpuReserved : s.has .cpu = false → s.cpuReserved = 0
  identifier : s.has .identifier = false → s.identifier = 0

instance (a : Attr) (s : SampleId) : Decidable (s.WellFormed a) :=
  decidable_of_iff' _ (SampleId.wellFormed_iff a s)

/-- A reading has one counter unless it is of a group, and zeros for what its
format lacks. -/
@[mk_iff]
structure ReadValues.WellFormed (fmt : ReadFormat) (v : ReadValues) : Prop where
  single : fmt.has .group = false → v.values.length = 1
  timeEnabled : fmt.has .timeEnabled = false → v.timeEnabled = 0
  timeRunning : fmt.has .timeRunning = false → v.timeRunning = 0
  ids : fmt.has .id = false → ∀ c ∈ v.values, c.2 = 0

instance (fmt : ReadFormat) (v : ReadValues) : Decidable (v.WellFormed fmt) :=
  have : Decidable (∀ c ∈ v.values, c.2 = 0) := List.decidableBAll _ _
  decidable_of_iff' _ (ReadValues.wellFormed_iff fmt v)

/-- One register for each bit of the mask, none when the ABI word is zero. -/
def UserRegs.WellFormed (r : UserRegs) : Prop :=
  r.values.length = if r.abi = 0 then 0 else popCount r.mask

instance (r : UserRegs) : Decidable r.WellFormed := inferInstanceAs (Decidable (_ = _))

/-- An empty stack dump has nothing in use. -/
def UserStack.WellFormed (s : UserStack) : Prop := s.data = [] → s.dynSize = 0

instance (s : UserStack) : Decidable s.WellFormed := inferInstanceAs (Decidable (_ → _))

/-- A sample carries what the attr says of it, and nothing in the fields that
are not selected. -/
@[mk_iff]
structure Sample.WellFormed (a : Attr) (s : Sample) : Prop where
  sampleType : s.sampleType = a.sampleType
  readFormat : s.readFormat = a.readFormat
  mask : s.userRegs.mask = a.sampleRegsUser
  identifier : s.has .identifier = false → s.identifier = 0
  ip : s.has .ip = false → s.ip = 0
  pid : s.has .tid = false → s.pid = 0
  tid : s.has .tid = false → s.tid = 0
  time : s.has .time = false → s.time = 0
  addr : s.has .addr = false → s.addr = 0
  id : s.has .id = false → s.id = 0
  streamId : s.has .streamId = false → s.streamId = 0
  cpu : s.has .cpu = false → s.cpu = 0
  cpuReserved : s.has .cpu = false → s.cpuReserved = 0
  period : s.has .period = false → s.period = 0
  read : if s.has .read then s.read.WellFormed s.readFormat else s.read = {}
  callchain : s.has .callchain = false → s.callchain = []
  raw : s.has .raw = false → s.raw = []
  rawLength : s.raw.length < UInt32.size
  branchStack : s.has .branchStack = false → s.branchStack = []
  abi : s.has .regsUser = false → s.userRegs.abi = 0
  userRegs : s.userRegs.WellFormed
  stackData : s.has .stackUser = false → s.userStack.data = []
  userStack : s.userStack.WellFormed

instance (a : Attr) (s : Sample) : Decidable (s.WellFormed a) :=
  decidable_of_iff' _ (Sample.wellFormed_iff a s)

/-- The numbers of entries of a sample's lists are words. -/
@[mk_iff]
structure Sample.CountsFit (s : Sample) : Prop where
  values : s.read.values.length < UInt64.size
  callchain : s.callchain.length < UInt64.size
  /-- A branch is three words. -/
  branchStack : s.branchStack.length * 3 < UInt64.size
  stack : s.userStack.data.length < UInt64.size

instance (s : Sample) : Decidable s.CountsFit := decidable_of_iff' _ (Sample.countsFit_iff s)

namespace Record

/-- Every field is as the record's own layout and the attr shape it: texts
without NUL, last parts and samples that agree with the attr, readings that
agree with their format, blobs whose length is a 32-bit word, and no known
type for an unknown record. -/
def Shaped (a : Attr) : Record → Prop
  | mmap r => '\x00' ∉ r.filename.toList ∧ r.sampleId.WellFormed a
  | mmap2 r => '\x00' ∉ r.filename.toList ∧ r.sampleId.WellFormed a
  | comm r => '\x00' ∉ r.comm.toList ∧ r.sampleId.WellFormed a
  | exit r | fork r => r.sampleId.WellFormed a
  | lost r => r.sampleId.WellFormed a
  | throttle r | unthrottle r => r.sampleId.WellFormed a
  | read r => r.values.WellFormed r.readFormat ∧ r.sampleId.WellFormed a
  | sample r => r.WellFormed a
  | tracingData data => data.length < UInt32.size
  | buildId r => '\x00' ∉ r.filename.toList
  | kernelSymbol kallsyms => kallsyms.length < UInt32.size
  | dso r => '\x00' ∉ r.dsoName.toList
  | symbol r => '\x00' ∉ r.name.toList
  | split _ | splitEnd | eventIds _ => True
  | unknown r => RecordKind.ofCode? r.type = none

instance (a : Attr) : (r : Record) → Decidable (r.Shaped a)
  | mmap _ | mmap2 _ | comm _ | read _ => inferInstanceAs (Decidable (_ ∧ _))
  | exit r | fork r | lost r | throttle r | unthrottle r =>
    inferInstanceAs (Decidable (r.sampleId.WellFormed a))
  | sample r => inferInstanceAs (Decidable (r.WellFormed a))
  | tracingData _ | kernelSymbol _ => inferInstanceAs (Decidable (_ < _))
  | buildId _ | dso _ | symbol _ => inferInstanceAs (Decidable (_ ∉ _))
  | split _ | splitEnd | eventIds _ => inferInstanceAs (Decidable True)
  | unknown _ => inferInstanceAs (Decidable (_ = _))

/-- A reading that is a record of its own is laid out as the attr asks. -/
def ReadsAs (a : Attr) : Record → Prop
  | read r => r.readFormat = a.readFormat
  | _ => True

instance (a : Attr) : (r : Record) → Decidable (r.ReadsAs a)
  | read _ => inferInstanceAs (Decidable (_ = _))
  | mmap _ | mmap2 _ | comm _ | exit _ | fork _ | lost _ | throttle _ | unthrottle _ | sample _
  | tracingData _ | buildId _ | kernelSymbol _ | dso _ | symbol _ | split _ | splitEnd | eventIds _
  | unknown _ => inferInstanceAs (Decidable True)

/-- Whether the encoding of a record keeps it, under the attr that decodes it. -/
@[mk_iff]
structure WellFormed (a : Attr) (r : Record) : Prop where
  shaped : r.Shaped a
  readsAs : r.ReadsAs a

instance (a : Attr) (r : Record) : Decidable (r.WellFormed a) :=
  decidable_of_iff' _ (wellFormed_iff a r)

/-- The numbers of entries of a record's lists are words. -/
def CountsFit : Record → Prop
  | read r => r.values.values.length < UInt64.size
  | sample r => r.CountsFit
  -- an id and the index of its attr are two words
  | eventIds ids => ids.length * 2 < UInt64.size
  | _ => True

instance : (r : Record) → Decidable r.CountsFit
  | read _ | eventIds _ => inferInstanceAs (Decidable (_ < _))
  | sample r => inferInstanceAs (Decidable r.CountsFit)
  | mmap _ | mmap2 _ | comm _ | exit _ | fork _ | lost _ | throttle _ | unthrottle _
  | tracingData _ | buildId _ | kernelSymbol _ | dso _ | symbol _ | split _ | splitEnd
  | unknown _ => inferInstanceAs (Decidable True)

end Record
end Profiler
