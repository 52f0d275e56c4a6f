/-
# Threads, processes and their maps

What the records tell of the system that was recorded: which threads there
are, what they and their processes are called, and what is mapped where. A
sample's address is looked up among the maps of its process and those of the
kernel, which every process sees.

Key definitions: `ThreadTree`, `ThreadTree.addThread`,
`ThreadTree.findThread`, `ThreadTree.fork`, `ThreadTree.update`,
`ThreadTree.findMap`.
-/
import Profiler.OrderedMap
import Profiler.Process.MapSet
import Profiler.Record.Basic

namespace Profiler

/-- A thread and the name it took last. -/
structure Thread where
  pid : Pid
  tid : Pid
  comm : String
  deriving DecidableEq, Repr, Inhabited

/-- Threads, the names of processes, and maps. -/
structure ThreadTree where
  processes : OrderedMap Pid String := ⟨[]⟩
  threads : OrderedMap Pid Thread := ⟨[]⟩
  kernelMaps : MapSet := []
  userMaps : OrderedMap Pid MapSet := ⟨[]⟩
  deriving DecidableEq, Repr, Inhabited

namespace ThreadTree

def unknownComm : String := "unknown"

/-- The number of a record's process or thread. -/
def pidOf (n : UInt32) : Pid := n.toInt32

def addProcess (t : ThreadTree) (pid : Pid) (comm : String) : ThreadTree :=
  { t with processes := t.processes.insert pid comm }

/-- Name a thread, which keeps the process it belongs to if it is known. The
name of the main thread is that of the process too, and so is the name of any
thread while the process has none. -/
def addThread (t : ThreadTree) (pid tid : Pid) (comm : String) : ThreadTree :=
  let thread := match t.threads.get? tid with
    | some known => { known with comm }
    | none => ⟨pid, tid, comm⟩
  { t with
    threads := t.threads.insert tid thread
    processes :=
      if pid = tid ∨ t.processes.contains pid = false then t.processes.insert pid comm
      else t.processes }

/-- The thread with these numbers, made with the name of its process if there
is none. A thread known under another process is forgotten first. -/
def findThread (t : ThreadTree) (pid tid : Pid) : Thread × ThreadTree :=
  let processes := match t.processes.get? pid with
    | some _ => t.processes
    | none => t.processes.insert pid unknownComm
  match t.threads.get? tid with
  | some known =>
    if known.pid = pid then (known, { t with processes })
    else
      let thread : Thread := ⟨pid, tid, (processes.get? pid).getD unknownComm⟩
      (thread, { t with processes, threads := t.threads.insert tid thread })
  | none =>
    let thread : Thread := ⟨pid, tid, (processes.get? pid).getD unknownComm⟩
    (thread, { t with processes, threads := t.threads.insert tid thread })

def mapsOf (t : ThreadTree) (pid : Pid) : MapSet := (t.userMaps.get? pid).getD []

/-- A new process takes the name of its parent and the parent's maps, unless
there are maps of its own. -/
def inherit (t : ThreadTree) (pid ppid : Pid) (comm : String) : ThreadTree :=
  let t := { t with processes := t.processes.insert pid comm }
  match t.userMaps.get? ppid, t.userMaps.get? pid with
  | some maps, none => { t with userMaps := t.userMaps.insert pid maps }
  | _, _ => t

/-- A thread begins: it is called like its parent. -/
def fork (t : ThreadTree) (pid tid ppid ptid : Pid) : ThreadTree :=
  let (parent, t) := t.findThread ppid ptid
  let (child, t) := t.findThread pid tid
  let t := { t with threads := t.threads.insert tid { child with comm := parent.comm } }
  if pid = ppid then t else t.inherit pid ppid parent.comm

/-- A thread ends. Its process stays, as other threads may go on. -/
def exit (t : ThreadTree) (tid : Pid) : ThreadTree := { t with threads := t.threads.erase tid }

/-- Add a map of the kernel, unless its length is zero. -/
def addKernelMap (t : ThreadTree) (start len pgoff time : UInt64) (filename : String) :
    ThreadTree :=
  if len = 0 then t
  else { t with kernelMaps := t.kernelMaps.insert ⟨kernelPid, start, len, pgoff, time, filename⟩ }

/-- Add a map of a process, unless its length is zero. -/
def addUserMap (t : ThreadTree) (pid : Pid) (start len pgoff time : UInt64)
    (filename : String) : ThreadTree :=
  if len = 0 then t
  else
    let maps := (t.mapsOf pid).insert ⟨pid, start, len, pgoff, time, filename⟩
    { t with userMaps := t.userMaps.insert pid maps }

/-- Add a map that a thread has made. -/
def addThreadMap (t : ThreadTree) (pid tid : Pid) (start len pgoff time : UInt64)
    (filename : String) : ThreadTree :=
  (t.findThread pid tid).2.addUserMap pid start len pgoff time filename

/-- The map of an address in a process: a user map, else one of the kernel,
else the unknown map. -/
def findMap (t : ThreadTree) (pid : Pid) (addr : UInt64) : MapEntry :=
  (((t.mapsOf pid).find? addr).or (t.kernelMaps.find? addr)).getD (.unknown pid)

/-- The map of an address that is known to be the kernel's or the user's. -/
def findMapIn (t : ThreadTree) (pid : Pid) (addr : UInt64) (inKernel : Bool) : MapEntry :=
  let maps := if inKernel then t.kernelMaps else t.mapsOf pid
  (maps.find? addr).getD (.unknown pid)

/-- The name the kernel gives to executable memory without a file. -/
def anonymousName : String := "//anon"

/-- The name that memory without a file is kept under. -/
def shownName (filename : String) : String :=
  if filename = anonymousName then "[unknown]" else filename

def addRecordMap (t : ThreadTree) (misc : UInt16) (pid tid : UInt32)
    (start len pgoff time : UInt64) (filename userName : String) : ThreadTree :=
  if isKernelMode misc then t.addKernelMap start len pgoff time filename
  else t.addThreadMap (pidOf pid) (pidOf tid) start len pgoff time userName

/-- What a record tells about threads and maps. -/
def update (t : ThreadTree) : Record → ThreadTree
  | .mmap r =>
    t.addRecordMap r.misc r.pid r.tid r.addr r.len r.pgoff r.sampleId.time r.filename r.filename
  | .mmap2 r =>
    t.addRecordMap r.misc r.pid r.tid r.addr r.len r.pgoff r.sampleId.time r.filename
      (shownName r.filename)
  | .comm r => t.addThread (pidOf r.pid) (pidOf r.tid) r.comm
  | .fork r => t.fork (pidOf r.pid) (pidOf r.tid) (pidOf r.ppid) (pidOf r.ptid)
  | .exit r => t.exit (pidOf r.tid)
  | _ => t

def ofRecords (rs : List Record) : ThreadTree := rs.foldl update {}

end ThreadTree
end Profiler
