/-
# The summary of a recording

A summary takes in the records of a recording in the order of their times. It
keeps what is known about threads, maps and symbols, and puts each sample into
its row; call chains are resolved to the names of functions as they come.

Key definitions: `Summary`, `Summary.chainNames`, `Summary.take`.
-/
import Profiler.Record.Trim
import Profiler.Report.SampleTable
import Profiler.Symbol.Dso
import Profiler.Text.Utf8

namespace Profiler

structure Summary where
  table : SampleTable
  dso : DsoCache := {}
  /-- Whether the call chains of samples are wanted. -/
  withChains : Bool := false
  /-- Whether the kernel's symbols are known and not taken from the records. -/
  kernelKnown : Bool := false

namespace Summary

/-- Resolve the addresses of a call chain. A context among them tells whether
those that follow are the kernel's. The names are in reverse. -/
def resolve (threads : ThreadTree) (read? : String → Option Bytes) (pid : Pid) :
    (inKernel : Bool) → (names : List String) → DsoCache → List UInt64 → List String × DsoCache
  | _, names, dso, [] => (names, dso)
  | inKernel, names, dso, ip :: rest =>
    if leastContext ≤ ip then
      let inKernel := if ip = kernelContext then true
        else if ip = userContext then false else inKernel
      resolve threads read? pid inKernel names dso rest
    else
      let (name, dso) := dso.symbolName read? (threads.findMapIn pid ip inKernel) ip
      resolve threads read? pid inKernel (name :: names) dso rest

/-- The functions of a sample's call chain, the outermost caller first. A
function that follows itself counts once. -/
def chainNames (s : Summary) (read? : String → Option Bytes) (x : Sample) :
    List String × DsoCache :=
  let (names, dso) :=
    resolve s.table.threads read? (ThreadTree.pidOf x.pid) x.inKernel [] s.dso x.callchain
  (names.eraseReps, dso)

/-- Take in a record. -/
def take (s : Summary) (read? : String → Option Bytes) : Record → Summary
  | .sample x =>
    if s.withChains && !x.callchain.isEmpty then
      let (names, dso) := s.chainNames read? x
      let (_, table) := s.table.addChain (ThreadTree.pidOf x.pid) (ThreadTree.pidOf x.tid) x.ip
        x.time (SampleTable.countedPeriod x) names
      { s with table, dso }
    else { s with table := s.table.processRecord (.sample x) }
  | .kernelSymbol text =>
    if s.kernelKnown then { s with table := s.table.processRecord (.kernelSymbol text) }
    else { s with dso := { s.dso with kernelSymbols := .ofKallsyms (Utf8.decode text) } }
  | r => { s with table := s.table.processRecord r }

end Summary
end Profiler
