/-
# Cpus that come and go

A recording looks from time to time which cpus are online. When a cpu has
gone, its buffer is drained, or its counters are read, and its descriptors are
closed. When a cpu has come, every group is opened on it again, and a record
announces the new ids before any of their data.

Key definitions: `Recording.watchCpus`, `Recording.followCpus`,
`Recording.leaveCpu`, `Recording.enterCpu`, `Recording.run`.
-/
import Profiler.Recording.Buffers

namespace Profiler

def SelectionSet.follows (s : SelectionSet) (cpu : Nat) : Bool :=
  s.monitoredCpus.isEmpty || s.monitoredCpus.contains cpu

namespace Recording

variable {ω : Type} (host : Host ω)

/-- Register a timer, which first fires an interval from now. -/
def addTimer (interval : Nat) (task : RecordingTask) : Recording ω EventHandle := do
  let s ← get
  match s.loop.addTimer (host.now s.world) interval task with
  | .ok (handle, loop) =>
    set { s with loop }
    return handle
  | .error cause => Effect.refuse cause

/-- Look at the cpus at every interval of so many nanoseconds, and follow the
given ones, or all if none are given. -/
def watchCpus (cpus : List Nat) (interval : Nat) : Recording ω Unit := do
  modifySet fun set => { set with monitoredCpus := set.monitoredCpus ++ cpus }
  let onlineCpus ← outside host.onlineCpus
  modifySet fun set => { set with onlineCpus }
  let _ ← addTimer host interval .watchCpus

/-- Read counters for the last time and keep the readings. -/
def keepReadings : List EventFile → Recording ω Unit
  | [] => return
  | file :: rest => do
    let counter ← outside (host.readCounter file.descriptor)
    modifySet (·.keepReading file.descriptor { tid := file.tid, cpu := file.cpu, counter })
    keepReadings rest

/-- No longer let the loop wait for the buffer of a cpu. -/
def unwatchBuffer (cpu : Nat) : Recording ω Unit := do
  match (← getSet).readEvents.get? cpu with
  | none => return
  | some handle =>
    modify fun s =>
      { s with
        loop := (s.loop.delete handle).2
        set := { s.set with readEvents := s.set.readEvents.erase cpu } }

/-- A cpu has gone: take what it has left and close its descriptors. The
answer is false if a record was refused; then they stay open. -/
def leaveCpu (cpu : Nat) : Recording ω Bool := do
  if (← getSet).counting then
    keepReadings host ((← getSet).filesOn cpu)
    closeOn host cpu
    return true
  else
    unwatchBuffer cpu
    if ← drainCpu host cpu then
      closeOn host cpu
      return true
    else return false

/-- Open groups again on a cpu. One that is refused is only noted, as the cpu
may have gone again. -/
def reopenPairs (cpu : Nat) : List (Nat × Pid) → Recording ω Unit
  | [] => return
  | (group, tid) :: rest => do
    match ← Effect.observe (openGroup host reopenedAttr group tid cpu) with
    | .ok () => pure ()
    | .error e =>
      let events := SelectionSet.groupName ((← getSet).groups.getD group [])
      outside' (host.note (.reopenRefused events tid cpu e))
    reopenPairs cpu rest

def activateCpu (cpu : Nat) : Recording ω Unit := do
  if !(← getSet).counting then mapCpu host cpu
  forFiles host.enable ((← getSet).filesOn cpu)

def announcement (set : SelectionSet) (cpu : Nat) : List (UInt64 × UInt64) :=
  set.selections.zipIdx.flatMap fun (x, i) =>
    (x.filesOn cpu).map fun file => (UInt64.ofNat i, file.id)

/-- A cpu has come: open, map and enable every group on it, and announce the
ids. The answer is false if the announcement was refused. -/
def enterCpu (cpu : Nat) : Recording ω Bool := do
  let threads ← targetThreads host
  reopenPairs host cpu (pairs (← getSet).groups.length threads)
  Effect.onFailure (activateCpu host cpu) (closeOn host cpu)
  let ids := announcement (← getSet) cpu
  modifySet fun set =>
    { set with attrOfId := ids.foldl (fun m e => m.insert e.2 e.1.toNat) set.attrOfId }
  if (← getSet).counting || ids.isEmpty then return true
  else if ← deliver host (.eventIds ids) then
    watchBuffer cpu
    return true
  else return false

def leaveCpus : List Nat → Recording ω Bool
  | [] => return true
  | cpu :: rest => do
    outside' (host.note (.cpuOffline cpu))
    if ← leaveCpu host cpu then leaveCpus rest else return false

def enterCpus : List Nat → Recording ω Bool
  | [] => return true
  | cpu :: rest => do
    outside' (host.note (.cpuOnline cpu))
    if ← enterCpu host cpu then enterCpus rest else return false

/-- Look which cpus are online and follow those that have come or gone. Only
when all is done are they taken as known. -/
def followCpus : Recording ω Bool := do
  let set ← getSet
  let online ← outside host.onlineCpus
  let gone := set.onlineCpus.filter fun c => !online.contains c && set.follows c
  let come := online.filter fun c => !set.onlineCpus.contains c && set.follows c
  if ← leaveCpus host gone then
    if ← enterCpus host come then
      modifySet fun set => { set with onlineCpus := online }
      return true
    else return false
  else return false

/-- A step whose failure is noted and counts as a refusal. -/
def orNote (x : Recording ω Bool) (notice : Error → Notice) : Recording ω Bool := do
  match ← Effect.observe x with
  | .ok b => return b
  | .error e =>
    outside' (host.note (notice e))
    return false

/-- What is done when the loop calls back. -/
def perform : RecordingTask → Recording ω Bool
  | .drain cpu => orNote host (drainCpu host cpu) (.drainFailed cpu)
  | .watchCpus => orNote host (followCpus host) .hotplugFailed
  | .stop => do
    modify fun s => { s with loop := s.loop.exit }
    return true

/-- The host of the loop of a recording. -/
def loopHost : LoopHost RecordingTask (SelectionSet × ω) where
  poll sources deadline s :=
    let (answers, world) := host.poll sources deadline s.2
    (answers, (s.1, world))
  takeSignals n s :=
    let (times, world) := host.takeSignals n s.2
    (times, (s.1, world))
  now s := host.now s.2
  call task s :=
    let (r, after) := perform host task { set := s.2.1, loop := s.1, world := s.2.2 }
    (r.toOption.getD false, (after.loop, (after.set, after.world)))

/-- Run the loop of a recording. The answer is whether nothing failed. -/
def run : Recording ω Bool := fun s =>
  let (r, loop, set, world) := EventLoop.run (loopHost host) (s.loop, (s.set, s.world))
  (r.mapError .io, { set, loop, world })

/-- Run the loop for so many nanoseconds at most. -/
def runFor (limit : Nat) : Recording ω Bool := do
  let handle ← addTimer host limit .stop
  let r ← Effect.observe (run host)
  modify fun s => { s with loop := (s.loop.delete handle).2 }
  Effect.ofExcept r

end Recording
end Profiler
