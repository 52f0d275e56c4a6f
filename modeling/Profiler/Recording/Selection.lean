/-
# Selected events

The events of a recording, in groups that are scheduled together. All attrs
have one sample type, so that one decoder reads the records of every event. A
change that the kernel must accept is tried on every attr before it is made.

Key definitions: `Selection`, `SelectionSet`, `Session`, `Recording`,
`Recording.addGroup`, `Recording.applyIfSupported`,
`Recording.setBranchSampling`, `Recording.enableDwarfChains`.
-/
import Profiler.Event.Type
import Profiler.Record.EventId
import Profiler.Recording.Host

namespace Profiler

/-- A counter's last reading, and where it was taken. -/
structure CounterInfo where
  tid : Pid
  cpu : Nat
  counter : CounterValue
  deriving DecidableEq, Repr, Inhabited

/-- A selected event and the descriptors that are open for it. -/
structure Selection where
  event : EventSpec
  attr : Attr
  files : List EventFile := []
  /-- Readings of descriptors on cpus that have gone. -/
  kept : List CounterInfo := []
  deriving DecidableEq, Repr, Inhabited

namespace Selection

def ids (s : Selection) : List UInt64 := s.files.map EventFile.id

def filesOn (s : Selection) (cpu : Nat) : List EventFile := s.files.filter (·.cpu == cpu)

end Selection

/-- What the loop of a recording calls back for. -/
inductive RecordingTask where
  /-- Data has come for a cpu. -/
  | drain (cpu : Nat)
  /-- It is time to look which cpus are online. -/
  | watchCpus
  /-- The recording is to end. -/
  | stop
  deriving DecidableEq, Repr

/-- The events of a recording and all that is known about their descriptors. -/
structure SelectionSet where
  /-- Whether events are only counted: then no buffers are mapped and the
  readings of cpus that go are kept. -/
  counting : Bool := false
  groups : List (List Selection) := []
  processes : OrderedMap UInt32 Unit := ⟨[]⟩
  /-- The threads to record; -1 is every thread. -/
  threads : OrderedMap Pid Unit := ⟨[]⟩
  /-- The pages of a buffer, as the kernel took them last. -/
  pages : Nat := 0
  /-- The cpus to follow as they come and go; none means all. -/
  monitoredCpus : List Nat := []
  onlineCpus : List Nat := []
  /-- Whether someone takes the records. -/
  attached : Bool := false
  /-- The event of the loop for each cpu's buffer. -/
  readEvents : OrderedMap Nat EventHandle := ⟨[]⟩
  /-- The attrs that records are decoded with. -/
  decodeAttrs : List Attr := []
  /-- Which of them an id belongs to. -/
  attrOfId : OrderedMap UInt64 Nat := ⟨[]⟩
  idPositions : Option IdPositions := none
  deriving Repr, Inhabited

namespace SelectionSet

/-- Every selection, in the order in which their attrs are written. -/
def selections (s : SelectionSet) : List Selection := s.groups.flatten

def mapSelections (s : SelectionSet) (f : Selection → Selection) : SelectionSet :=
  { s with groups := s.groups.map fun g => g.map f }

def mapAttrs (s : SelectionSet) (f : Attr → Attr) : SelectionSet :=
  s.mapSelections fun x => { x with attr := f x.attr }

/-- Give every attr the sample fields of all of them. -/
def uniteSampleTypes (s : SelectionSet) : SelectionSet :=
  let all : SampleMask := s.selections.foldl (fun acc x => acc ||| x.attr.sampleType) 0
  s.mapAttrs fun a => { a with sampleType := all }

def setSampleFreq (s : SelectionSet) (freq : UInt64) : SelectionSet :=
  s.mapAttrs (·.setSampleFreq freq)

def setSamplePeriod (s : SelectionSet) (period : UInt64) : SelectionSet :=
  s.mapAttrs (·.setSamplePeriod period)

/-- Sample tracepoints at each event and all others at a common frequency. -/
def useDefaultSampleFreq (s : SelectionSet) : SelectionSet :=
  s.mapSelections fun x =>
    { x with attr :=
        if x.event.eventType.isTracepoint then
          x.attr.setSamplePeriod EventType.defaultTracepointPeriod
        else x.attr.setSampleFreq EventType.defaultFreq }

/-- Let events begin when the recorded program starts, or when they are
opened. -/
def setEnableOnExec (s : SelectionSet) (on : Bool) : SelectionSet :=
  s.mapAttrs fun a => (a.set .enableOnExec on).set .disabled on

def setSampleIdAll (s : SelectionSet) : SelectionSet := s.mapAttrs (·.set .sampleIdAll true)

/-- Whether threads that a recorded thread starts are recorded too. -/
def setInherit (s : SelectionSet) (on : Bool) : SelectionSet := s.mapAttrs (·.set .inherit on)

/-- Report data at every record and not only when a buffer fills. -/
def setLowWatermark (s : SelectionSet) : SelectionSet := s.mapAttrs fun a => { a with wakeup := 1 }

def enableOnExec (s : SelectionSet) : Bool := s.selections.all (·.attr.has .enableOnExec)

/-- Whether some event samples the kernel. -/
def needsKernelSymbols (s : SelectionSet) : Bool :=
  s.selections.any fun x => !x.attr.has .excludeKernel

def addProcess (s : SelectionSet) (pid : UInt32) : SelectionSet :=
  { s with processes := s.processes.insert pid () }

def addThread (s : SelectionSet) (tid : Pid) : SelectionSet :=
  { s with threads := s.threads.insert tid () }

/-- The number that stands for every thread. -/
def everyThread : Pid := -1

/-- Record every thread; descriptors are then opened for cpus only. -/
def setSystemWide (s : SelectionSet) : SelectionSet := s.addThread everyThread

def hasTarget (s : SelectionSet) : Bool := !s.processes.isEmpty || !s.threads.isEmpty

def groupName (group : List Selection) : String :=
  ",".intercalate (group.map fun x => x.event.name)

end SelectionSet

/-- A recording: its events, its loop, and the outside. -/
structure Session (ω : Type) where
  set : SelectionSet := {}
  loop : EventLoop RecordingTask := {}
  world : ω

abbrev Recording (ω α : Type) := Effect (Session ω) α

namespace Recording

variable {ω : Type} (host : Host ω)

def outside (x : Effect ω α) : Recording ω α := fun s =>
  let (r, world) := x s.world
  (r, { s with world })

def outside' (x : StateM ω α) : Recording ω α := outside (Effect.ofState x)

def getSet : Recording ω SelectionSet := return (← get).set

def setSet (set : SelectionSet) : Recording ω Unit := modify fun s => { s with set }

def modifySet (f : SelectionSet → SelectionSet) : Recording ω Unit :=
  modify fun s => { s with set := f s.set }

/-- The event type with a name, tracepoints of the machine included. -/
def findEvent? (name : String) : Recording ω (Option EventType) := do
  let id? ← match EventType.tracepointParts? name with
    | some (system, event) => outside' (host.tracepointId? system event)
    | none => pure none
  return EventType.find? (fun _ _ => id?) name

/-- The event that a text asks for, with its modifiers. -/
def parseEvent (text : String) : Recording ω EventSpec := do
  let whole ← findEvent? host text
  let part := (Text.splitLast? ':' text.toList).map fun p => String.ofList p.1
  let named ← match part with
    | some name => findEvent? host name
    | none => pure none
  let find? := fun name =>
    if name = text then whole else if some name = part then named else none
  Effect.ofExcept (EventSpec.parseWith find? text)

/-- A selection for an event that is neither selected nor among `pending`. -/
def select (name : String) (pending : List Selection) : Recording ω Selection := do
  let event ← parseEvent host name
  if !(← outside' (host.isSupported event.attr)) then throw (.kernelRejected event.name)
  if ((← getSet).selections ++ pending).any fun s => s.event.name == event.name then
    Effect.refuse (.repeatedEvent event.name)
  return { event, attr := event.attr }

def selectAll (pending : List Selection) : List String → Recording ω (List Selection)
  | [] => return pending
  | name :: rest => do
    let s ← select host name pending
    selectAll (pending ++ [s]) rest

/-- Add events that are scheduled together, all of them or none. -/
def addGroup (names : List String) : Recording ω Unit := do
  if names.isEmpty then Effect.refuse .emptyGroup
  let group ← selectAll host [] names
  modifySet fun set => { set with groups := set.groups ++ [group] }.uniteSampleTypes

def addEvent (name : String) : Recording ω Unit := addGroup host [name]

/-- Ask the kernel whether it takes the changed attr of every selection. -/
def checkSupported (feature : String) (change : Attr → Attr) :
    List Selection → Recording ω Unit
  | [] => return
  | s :: rest => do
    if !(← outside' (host.isSupported (change s.attr))) then
      throw (.unsupported feature s.event.name)
    checkSupported feature change rest

/-- Change every attr if the kernel takes all of the changed ones. -/
def applyIfSupported (feature : String) (change : Attr → Attr) : Recording ω Unit := do
  checkSupported host feature change (← getSet).selections
  modifySet (·.mapAttrs change)

/-- Branches of any kind, calls, returns, and indirect calls. -/
def knownBranches : UInt64 := 0x8 ||| 0x10 ||| 0x20 ||| 0x40

/-- Record the branches of a mask, or none. -/
def withBranches (mask : UInt64) (a : Attr) : Attr :=
  let branches := SampleField.branchStack.mask
  { a with
    sampleType := if mask = 0 then a.sampleType &&& ~~~branches else a.sampleType ||| branches
    branchSampleType := mask }

def setBranchSampling (mask : UInt64) : Recording ω Unit := do
  if mask ≠ 0 ∧ mask &&& knownBranches = 0 then Effect.refuse (.branchMask mask.toNat)
  applyIfSupported host "branch stack sampling" (withBranches mask)

/-- Record call chains that the kernel finds by frame pointers. -/
def enableFramePointerChains : Recording ω Unit :=
  applyIfSupported host "frame pointer call chain sampling" (·.addSampleFields [.callchain])

/-- Record what is needed to unwind user stacks of up to a size. -/
def withStackDumps (size : Nat) (a : Attr) : Attr :=
  { (a.addSampleFields [.callchain, .regsUser, .stackUser]).set .excludeCallchainUser true with
    sampleRegsUser := userRegisters
    sampleStackUser := UInt32.ofNat size }

def enableDwarfChains (size : Nat) : Recording ω Unit := do
  if size = 0 ∨ size % 8 ≠ 0 ∨ maxStackDump < size then Effect.refuse (.stackSize size)
  applyIfSupported host "dwarf call chain sampling" (withStackDumps size)

end Recording
end Profiler
