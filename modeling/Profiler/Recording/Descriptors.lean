/-
# Open descriptors

Every event of a group is opened for each thread on each cpu: all members of
the group or none, and the first member leads the others. A cpu may refuse,
but some cpu has to accept each group for each thread.

Key definitions: `SelectionSet.files`, `Recording.openGroup`,
`Recording.openEvents`, `Recording.closeOn`, `Recording.readCounters`,
`CounterReport`.
-/
import Profiler.File.Header
import Profiler.File.Payload
import Profiler.Recording.Selection

namespace Profiler

/-- The readings of one event, with where each was taken. -/
structure CounterReport where
  group : Nat
  event : String
  modifier : String
  counters : List CounterInfo
  deriving DecidableEq, Repr

/-- The sum of the readings. -/
def CounterReport.total (r : CounterReport) : CounterValue :=
  r.counters.foldl (fun sum c => sum.add c.counter) {}

namespace SelectionSet

def files (s : SelectionSet) : List EventFile := s.selections.flatMap Selection.files

def filesOn (s : SelectionSet) (cpu : Nat) : List EventFile := s.files.filter (·.cpu == cpu)

def updateFile (s : SelectionSet) (d : Descriptor) (f : EventFile → EventFile) : SelectionSet :=
  s.mapSelections fun x =>
    { x with files := x.files.map fun file => if file.descriptor = d then f file else file }

def addFiles (s : SelectionSet) (group : Nat) (files : List EventFile) : SelectionSet :=
  { s with groups := s.groups.modify group fun members =>
      members.zipWith (fun x file => { x with files := x.files ++ [file] }) files }

def dropFilesOn (s : SelectionSet) (cpu : Nat) : SelectionSet :=
  s.mapSelections fun x => { x with files := x.files.filter (·.cpu != cpu) }

/-- Keep a reading with the selection that a descriptor belongs to. -/
def keepReading (s : SelectionSet) (d : Descriptor) (info : CounterInfo) : SelectionSet :=
  s.mapSelections fun x =>
    if x.files.any (·.descriptor == d) then { x with kept := x.kept ++ [info] } else x

/-- Each selection's attr and the ids of its descriptors, as files list them. -/
def attrsWithIds (s : SelectionSet) : List AttrWithIds :=
  s.selections.map fun x => { attr := x.attr, ids := x.ids }

/-- Each selection's attr, name and ids, as files describe them. -/
def eventDescs (s : SelectionSet) : List EventDesc :=
  s.selections.map fun x => { attr := x.attr, name := x.event.name, ids := x.ids }

def idEntries (s : SelectionSet) : List (UInt64 × Nat) :=
  s.selections.zipIdx.flatMap fun (x, i) => x.files.map fun file => (file.id, i)

end SelectionSet

namespace Recording

variable {ω : Type} (host : Host ω)

def closeAll : List EventFile → Recording ω Unit
  | [] => return
  | file :: rest => do
    outside' (host.close file.descriptor)
    closeAll rest

/-- Open a descriptor for each attr after those that are `opened`; the first
of all leads. If one is refused, those opened before it are closed. -/
def openMembers (tid : Pid) (cpu : Nat) (opened : List EventFile) :
    List Attr → Recording ω (List EventFile)
  | [] => return opened
  | attr :: rest => do
    let leader? := opened.head?.map EventFile.descriptor
    let (descriptor, id) ← Effect.onFailure (outside (host.openEvent attr tid cpu leader?))
      (closeAll host opened)
    openMembers tid cpu (opened ++ [{ descriptor, id, tid, cpu, leader? }]) rest

/-- The attr of an event that is opened again: it waits to be enabled. -/
def reopenedAttr (a : Attr) : Attr := (a.set .enableOnExec false).set .disabled true

/-- Open all members of a group for a thread on a cpu, or none. -/
def openGroup (change : Attr → Attr) (group : Nat) (tid : Pid) (cpu : Nat) :
    Recording ω Unit := do
  let members := (← getSet).groups.getD group []
  let files ← openMembers host tid cpu [] (members.map fun x => change x.attr)
  modifySet (·.addFiles group files)

/-- The threads of the listed processes, and `threads`. -/
def addThreadsOf (threads : OrderedMap Pid Unit) : List UInt32 →
    Recording ω (OrderedMap Pid Unit)
  | [] => return threads
  | pid :: rest => do
    let tids ← outside (host.threadIds pid.toNat)
    addThreadsOf (tids.foldl (fun m tid => m.insert (Int32.ofNat tid) ()) threads) rest

/-- Every thread that is to be recorded, in ascending order. -/
def targetThreads : Recording ω (List Pid) := do
  let set ← getSet
  return (← addThreadsOf host set.threads set.processes.keys).keys

/-- Open a group for a thread on each cpu that takes it. The answer is whether
one did, and the last refusal. -/
def openOnCpus (group : Nat) (tid : Pid) (taken : Bool) (refusal? : Option Error) :
    List Nat → Recording ω (Bool × Option Error)
  | [] => return (taken, refusal?)
  | cpu :: rest => do
    match ← Effect.observe (openGroup host id group tid cpu) with
    | .ok () => openOnCpus group tid true refusal? rest
    | .error e => openOnCpus group tid taken (some e) rest

/-- Open groups for threads; each pair has to be taken by some cpu. -/
def openPairs (cpus : List Nat) : List (Nat × Pid) → Recording ω Unit
  | [] => return
  | (group, tid) :: rest => do
    let (taken, refusal?) ← openOnCpus host group tid false none cpus
    if !taken then
      let events := SelectionSet.groupName ((← getSet).groups.getD group [])
      throw (match refusal? with
        | some e => .noCpuAccepted events tid.toInt e
        | none => .noCpuTried events tid.toInt)
    openPairs cpus rest

/-- Note which attr decodes the records of each id. With several attrs the
ids have to be at one place in all records. -/
def routeIds : Recording ω Unit := do
  let attrs := (← getSet).selections.map Selection.attr
  modifySet fun set =>
    { set with decodeAttrs := attrs, attrOfId := OrderedMap.ofList set.idEntries }
  let positions? ← if 1 < attrs.length then
      some <$> Effect.ofExcept ((commonIdPositions attrs).mapError .misuse)
    else pure none
  modifySet fun set => { set with idPositions := positions? }

def pairs (groups : Nat) (threads : List Pid) : List (Nat × Pid) :=
  (List.range groups).flatMap fun group => threads.map fun tid => (group, tid)

/-- Open every event for every thread on the given cpus, or on all that are
online. What was opened before a failure stays open. -/
def openEvents (cpus : List Nat) : Recording ω Unit := do
  let online ← outside host.onlineCpus
  if let some cpu := cpus.find? fun c => !online.contains c then
    Effect.refuse (.cpuNotOnline cpu)
  let threads ← targetThreads host
  if threads.isEmpty then Effect.refuse .noTarget
  openPairs host (if cpus.isEmpty then online else cpus) (pairs (← getSet).groups.length threads)
  routeIds

def forFiles (act : Descriptor → Effect ω Unit) : List EventFile → Recording ω Unit
  | [] => return
  | file :: rest => do
    outside (act file.descriptor)
    forFiles act rest

def enableEvents : Recording ω Unit := do forFiles host.enable (← getSet).files

def disableEvents : Recording ω Unit := do forFiles host.disable (← getSet).files

def readFiles : List EventFile → Recording ω (List CounterInfo)
  | [] => return []
  | file :: rest => do
    let counter ← outside (host.readCounter file.descriptor)
    return { tid := file.tid, cpu := file.cpu, counter } :: (← readFiles rest)

/-- The readings of selections, each with the number of its group. -/
def readSelections : List (Nat × Selection) → Recording ω (List CounterReport)
  | [] => return []
  | (group, x) :: rest => do
    let current ← readFiles host x.files
    let report : CounterReport := {
      group
      event := x.event.eventType.name
      modifier := x.event.modifier
      counters := x.kept ++ current }
    return report :: (← readSelections rest)

/-- Read every counter. Readings that were kept from cpus that have gone come
first. -/
def readCounters : Recording ω (List CounterReport) := do
  readSelections host ((← getSet).groups.zipIdx.flatMap fun (g, i) => g.map fun x => (i, x))

def closeOn (cpu : Nat) : Recording ω Unit := do
  closeAll host ((← getSet).filesOn cpu)
  modifySet (·.dropFilesOn cpu)

def closeEvents : Recording ω Unit := do
  closeAll host (← getSet).files
  modifySet (·.mapSelections fun x => { x with files := [] })

end Recording
end Profiler
