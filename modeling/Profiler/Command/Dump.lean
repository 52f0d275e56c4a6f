/-
# The command `dump`

Prints what is in a recorded file: its header, the attrs of its events, its
features, and its records.

Key definitions: `DumpArguments`, `Dump.headerLines`, `Dump.attrLines`,
`Command.dump`.
-/
import Profiler.Command.Basic
import Profiler.Event.Type
import Profiler.Record.Describe

namespace Profiler

structure DumpArguments where
  input? : Option String := none
  /-- Print records by their times and not by their places. -/
  sorted : Bool := false
  deriving DecidableEq, Repr

namespace Dump

def grammar : Grammar DumpArguments where
  switches := [{ name := "sorted" }]
  take a
    | .flag "sorted" => some { a with sorted := true }
    | .operand text =>
      if a.input?.isSome then none else (pathValue? text).map ({ a with input? := · })
    | _ => none

def sectionText (s : Section) : String := s!"offset {hex0x s.offset}, size {hex0x s.size}"

def headerLines (h : FileHeader) : List String :=
  [s!"magic: {Utf8.decode fileMagic}",
    s!"header_size: {h.headerSize}",
    s!"attr_size: {h.attrSize}",
    s!"attrs: {sectionText h.attrs}",
    s!"data: {sectionText h.data}",
    s!"event_types: {sectionText h.eventTypes}"] ++
  h.featureIds.map fun f => s!"feature: {featureName f}"

def bit (b : Bool) : Nat := if b then 1 else 0

def attrLines (a : Attr) : List String :=
  let sampling := if a.has .freq then "sample_freq" else "sample_period"
  [s!"  type {a.type}, config {a.config}, name {eventName a.type a.config}",
    s!"  {sampling} {a.samplePeriodOrFreq}",
    s!"  sample_type {hex0x a.sampleType} ({SampleMask.describe a.sampleType})",
    s!"  read_format {hex0x a.readFormat}",
    s!"  disabled {bit (a.has .disabled)}, inherit {bit (a.has .inherit)}, " ++
      s!"enable_on_exec {bit (a.has .enableOnExec)}, sample_id_all {bit (a.has .sampleIdAll)}",
    s!"  exclude_user {bit (a.has .excludeUser)}, exclude_kernel {bit (a.has .excludeKernel)}, " ++
      s!"exclude_hv {bit (a.has .excludeHv)}, precise_ip {a.preciseIp}"] ++
  (if a.branchSampleType = 0 then [] else [s!"  branch_sample_type {hex0x a.branchSampleType}"]) ++
  (if a.sampleStackUser = 0 then []
    else [s!"  sample_regs_user {hex0x a.sampleRegsUser}, sample_stack_user {a.sampleStackUser}"])

def idsText (ids : List UInt64) : String := ", ".intercalate (ids.map toString)

def attrTableLines (attrs : List AttrWithIds) : List String :=
  attrs.zipIdx.flatMap fun (a, i) =>
    s!"attr {i + 1}:" :: (attrLines a.attr ++ [s!"  ids: {idsText a.ids}"])

def fileLines (f : FileEntry) : List String :=
  (s!"file: {f.path} ({f.dsoType.name}, min_vaddr {hex0x f.minVaddr}, " ++
    s!"{f.symbols.length} symbols)") ::
  f.symbols.map fun s => s!"  {hex0x s.vaddr} 0x{hexDigits s.len.toNat} {s.name}"

def printLines (lines : List String) : Effect Machine Unit :=
  Machine.print (String.join (lines.map (· ++ "\n")))

def labelled (label : String) (text? : Option String) : List String :=
  text?.toList.map fun text => s!"{label}: {text}"

open Command in
def printFeatures (f : RecordFile) : Effect Machine Unit := do
  let words ← decoded f.commandLine
  if !words.isEmpty then printLines ["cmdline: " ++ " ".intercalate words]
  let hostname? ← decoded f.hostname
  let osRelease? ← decoded f.osRelease
  let arch? ← decoded f.arch
  printLines (labelled "hostname" hostname? ++ labelled "osrelease" osRelease? ++
    labelled "arch" arch?)
  let counts? ← decoded f.nrCpus
  printLines (counts?.toList.map fun n => s!"nrcpus: online {n.online}, available {n.available}")
  printLines ((← decoded f.buildIds).map fun b =>
    s!"build_id: pid {b.pid.toInt32.toInt}, {b.buildId.text} {b.filename}")
  printLines ((← decoded f.metaInfo).entries.map fun (key, value) => s!"meta_info: {key} = {value}")
  printLines ((← decoded f.eventDescs).map fun d => s!"event_desc: {d.name} ids [{idsText d.ids}]")
  printLines ((← decoded f.fileEntries).flatMap fileLines)

def run (a : DumpArguments) : Effect Machine Unit := do
  let f ← Command.openRecord (a.input?.getD Command.defaultFile)
  printLines (headerLines f.header)
  printLines (attrTableLines f.attrs)
  printFeatures f
  let v := f.visit a.sorted (fun rs r => (r :: rs, true)) ([] : List Record)
  printLines (v.state.reverse.map Record.describe)
  Command.decoded v.outcome

end Dump

def Command.dump : Command :=
  .ofGrammar "dump" "print header, features and records of a perf.data file" Dump.grammar {}
    Dump.run

end Profiler
