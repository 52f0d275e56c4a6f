/-
# Records in words

The lines that show a record to a reader: its kind, its fields, and its last
part when it has one.

Key definitions: `Record.lines`, `Record.describe`.
-/
import Profiler.Record.Basic

namespace Profiler

/-- The lines about a sample's fields. -/
def Sample.lines (s : Sample) : List String :=
  [s!"  ip {hex0x s.ip}, pid {s.pid}, tid {s.tid}, time {s.time}, cpu {s.cpu}, " ++
    s!"period {s.period}, id {s.id}"] ++
  (if s.callchain.isEmpty then []
    else s!"  callchain nr={s.callchain.length}" :: s.callchain.map fun ip => s!"    {hex0x ip}") ++
  (if s.branchStack.isEmpty then []
    else s!"  branch_stack nr={s.branchStack.length}" :: s.branchStack.map fun b =>
      s!"    from {hex0x b.source}, to {hex0x b.target}, flags {hex0x b.flags}") ++
  (if s.userStack.data.isEmpty then []
    else [s!"  user_stack size {s.userStack.data.length}, dyn_size {s.userStack.dynSize}"])

namespace Record

/-- The lines about the fields of a record. -/
def fieldLines : Record → List String
  | mmap r =>
    [s!"  pid {r.pid}, tid {r.tid}, addr {hex0x r.addr}, len {hex0x r.len}, " ++
      s!"pgoff {hex0x r.pgoff}, filename {r.filename}"]
  | mmap2 r =>
    [s!"  pid {r.pid}, tid {r.tid}, addr {hex0x r.addr}, len {hex0x r.len}, " ++
      s!"pgoff {hex0x r.pgoff}, maj {r.maj}, min {r.min}, ino {r.ino}, prot {r.prot}, " ++
      s!"flags {r.flags}, filename {r.filename}"]
  | comm r => [s!"  pid {r.pid}, tid {r.tid}, comm {r.comm}"]
  | fork r | exit r => [s!"  pid {r.pid}, ppid {r.ppid}, tid {r.tid}, ptid {r.ptid}"]
  | lost r => [s!"  id {r.id}, lost {r.lost}"]
  | throttle r | unthrottle r => [s!"  time {r.time}, id {r.id}, stream_id {r.streamId}"]
  | read r =>
    s!"  pid {r.pid}, tid {r.tid}" ::
      r.values.values.map fun c => s!"  value {c.1}, id {c.2}"
  | sample s => s.lines
  | tracingData data => [s!"  size {data.length}"]
  | buildId r => [s!"  pid {r.pid}, build_id {r.buildId.text}, filename {r.filename}"]
  | kernelSymbol kallsyms => [s!"  kallsyms size {kallsyms.length}"]
  | dso r => [s!"  dso_type {r.dsoType}, dso_id {r.dsoId}, dso_name {r.dsoName}"]
  | symbol r =>
    [s!"  name {r.name}, addr {hex0x r.addr}, len {hex0x r.len}, dso_id {r.dsoId}"]
  | split data => [s!"  size {data.length}"]
  | splitEnd => []
  | eventIds ids => ids.map fun p => s!"  attr_id {p.1}, event_id {p.2}"
  | unknown r => [s!"  size {r.data.length}"]

/-- The line about a record's last part, if it has one. -/
def sampleIdLines (r : Record) : List String :=
  match r.sampleId? with
  | some s =>
    if s.sampleIdAll then
      [s!"  sample_id: pid {s.pid}, tid {s.tid}, time {s.time}, id {s.id}, cpu {s.cpu}"]
    else []
  | none => []

def lines (r : Record) : List String :=
  s!"record {r.typeName}: type {r.type}, misc 0x{hexDigits r.misc.toNat}" ::
    (r.fieldLines ++ r.sampleIdLines)

/-- The lines, each ended by a line feed. -/
def describe (r : Record) : String := String.join (r.lines.map (· ++ "\n"))

end Record
end Profiler
