/-
# Records about what was there before

A recording knows nothing of what was mapped and running before it began, so
the recorder writes records of its own about that first: of the kernel, and of
each process with its threads and executable mappings. They are taken to be
about the first event.

Key definitions: `syntheticSampleId`, `kernelRecords`, `ProcessSnapshot`,
`ProcessSnapshot.records`.
-/
import Profiler.File.Header
import Profiler.Machine.Mapping
import Profiler.Process.ThreadTree

namespace Profiler

/-- The last part of the recorder's own records: the first id of the first
attr. -/
def syntheticSampleId : List AttrWithIds → SampleId
  | [] => {}
  | first :: _ =>
    let id := first.ids.headD 0
    { SampleId.ofAttr first.attr with id, identifier := id }

/-- What is known about the kernel: that its text begins at an address, and
its list of symbols. -/
def kernelRecords (sampleId : SampleId) (start : UInt64) (symbols? : Option Bytes) :
    List Record :=
  .mmap {
    misc := kernelMode
    pid := 0xffffffff
    tid := 0xffffffff
    addr := start
    len := 0xffffffffffffffff - start
    pgoff := start
    filename := MapEntry.kernelImageName
    sampleId } :: symbols?.toList.map .kernelSymbol

/-- A process as it was found. -/
structure ProcessSnapshot where
  pid : UInt32
  /-- The threads with their names. -/
  threads : List (UInt32 × String)
  mappings : List Mapping
  deriving DecidableEq, Repr

namespace ProcessSnapshot

def threadRecord (p : ProcessSnapshot) (sampleId : SampleId) (thread : UInt32 × String) : Record :=
  .comm { pid := p.pid, tid := thread.1, comm := thread.2, sampleId }

def mappingRecord (p : ProcessSnapshot) (sampleId : SampleId) (m : Mapping) : Record :=
  .mmap {
    misc := userMode
    pid := p.pid
    tid := p.pid
    addr := m.start
    len := m.stop - m.start
    pgoff := m.offset
    filename := m.path.getD ThreadTree.anonymousName
    sampleId }

/-- The main thread comes before the mappings and the others after them. -/
def records (p : ProcessSnapshot) (sampleId : SampleId) : List Record :=
  let (main, others) := p.threads.partition fun thread => thread.1 == p.pid
  main.map (p.threadRecord sampleId) ++ p.mappings.map (p.mappingRecord sampleId) ++
    others.map (p.threadRecord sampleId)

end ProcessSnapshot
end Profiler
