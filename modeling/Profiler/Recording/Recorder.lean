/-
# A recorder

A recorder is a machine on which a recording goes on, with the file that is
being written and a count of what has been written to it.

Key definitions: `RecordingStats`, `RecordingStats.account`, `Recorder`,
`Recorder.take`, `Recorder.host`.
-/
import Profiler.File.Draft
import Profiler.Machine.Kernel
import Profiler.Record.Encode

namespace Profiler

/-- What a recording holds. -/
structure RecordingStats where
  samples : Nat := 0
  /-- Samples that the kernel had no room for. -/
  lost : UInt64 := 0
  records : Nat := 0
  /-- The files that processes have mapped. -/
  mappedFiles : OrderedMap String Unit := ⟨[]⟩
  deriving Repr

namespace RecordingStats

/-- Note a file unless it was mapped in kernel mode. -/
def addFile (s : RecordingStats) (misc : UInt16) (filename : String) : RecordingStats :=
  if misc &&& kernelMode = 0 then { s with mappedFiles := s.mappedFiles.insert filename () } else s

/-- Count a record. -/
def account (s : RecordingStats) (r : Record) : RecordingStats :=
  let s := { s with records := s.records + 1 }
  match r with
  | .sample _ => { s with samples := s.samples + 1 }
  | .lost r => { s with lost := s.lost + r.lost }
  | .mmap r => s.addFile r.misc r.filename
  | .mmap2 r => s.addFile r.misc r.filename
  | _ => s

end RecordingStats

structure Recorder where
  machine : Machine
  /-- The file that is being written, once it has been created. -/
  draft? : Option FileDraft := none
  stats : RecordingStats := {}

namespace Recorder

/-- Write what a draft allows to be written. -/
def write (f : FileDraft → Except Misuse FileDraft) : Effect Recorder Unit := do
  match f ((← get).draft?.getD {}) with
  | .ok draft => modify fun r => { r with draft? := some draft }
  | .error cause => Effect.refuse cause

/-- Count a record and write it. -/
def take (r : Record) : Effect Recorder Unit := do
  modify fun s => { s with stats := s.stats.account r }
  write (·.writeRecord r)

/-- A step of the machine. -/
def onMachine (x : Effect Machine α) : Effect Recorder α := fun s =>
  let (r, machine) := x s.machine
  (r, { s with machine })

def onMachine' (x : StateM Machine α) : StateM Recorder α := fun s =>
  let (r, machine) := x s.machine
  (r, { s with machine })

/-- The machine as the outside of a recording whose records the recorder
takes. -/
def host : Host Recorder where
  openEvent attr tid cpu leader? := onMachine (Machine.openEvent attr tid cpu leader?)
  close d := onMachine' (Machine.close d)
  isSupported attr := onMachine' (Machine.isSupported attr)
  onlineCpus := onMachine Machine.onlineCpus
  threadIds pid := onMachine (Machine.threadIds pid)
  tracepointId? system event := onMachine' (Machine.tracepointId? system event)
  enable d := onMachine (Machine.host.enable d)
  disable d := onMachine (Machine.host.disable d)
  readCounter d := onMachine (Machine.readCounter d)
  map d pages := onMachine (Machine.map d pages)
  share d owner := onMachine (Machine.host.share d owner)
  unmap d := onMachine' (Machine.unmap d)
  drain d := onMachine (Machine.drain d)
  deliver r := do return (← (take r).run).isOk
  note n := onMachine' (Machine.note n)
  poll sources deadline s :=
    let (answers, machine) := Machine.poll sources deadline s.machine
    (answers, { s with machine })
  takeSignals n s :=
    let (times, machine) := Machine.takeSignals n s.machine
    (times, { s with machine })
  now s := s.machine.clock

end Recorder
end Profiler
