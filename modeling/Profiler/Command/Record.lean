/-
# The command `record`

Records events of processes, of threads or of the whole system into a file,
until a time is up or a signal comes. A recording that fails leaves what it
had written, without the tables that a finished file has.

Key definitions: `RecordArguments`, `Record.select`, `Record.synthesize`,
`Record.recordEvents`, `Record.writeFeatures`, `Command.record`.
-/
import Profiler.Command.Basic
import Profiler.Duration
import Profiler.EventLoop.Signal
import Profiler.Recording.Hotplug
import Profiler.Recording.Recorder
import Profiler.Recording.Synthesis
import Profiler.Symbol.Binary
import Profiler.Text.Timestamp

namespace Profiler

/-- How the callers of a sample are found. -/
inductive ChainMethod where
  | framePointers
  /-- Unwinding copies of the stack of up to a size. -/
  | stackDumps (size : Nat)
  deriving DecidableEq, Repr

structure RecordArguments where
  events : List String := []
  /-- Lists of events that are scheduled together. -/
  groups : List String := []
  pids : List UInt32 := []
  tids : List UInt32 := []
  systemWide : Bool := false
  cpus? : Option String := none
  freq? : Option UInt64 := none
  period? : Option UInt64 := none
  chains? : Option ChainMethod := none
  branches : Bool := false
  noInherit : Bool := false
  duration? : Option Duration := none
  hotplugInterval : Duration := ⟨2 * nanosPerSecond⟩
  pages? : Option Nat := none
  output : String := Command.defaultFile

namespace RecordCommand

def defaultStackSize : Nat := 8192

def chainMethod? (text : String) : Option ChainMethod :=
  match commaValues text with
  | ["fp"] => some .framePointers
  | ["dwarf"] => some (.stackDumps defaultStackSize)
  | ["dwarf", size] => (Numeral.unsigned? 10 UInt32.size size.toList).map .stackDumps
  | _ => none

def pid? (text : String) : Option UInt32 :=
  match Numeral.signed? 10 (UInt64.size / 2) text.toList with
  | some n => if 0 ≤ n ∧ n < UInt32.size then some (UInt32.ofNat n.toNat) else none
  | none => none

def grammar : Grammar RecordArguments where
  switches :=
    [{ name := "event", letter? := some 'e', takesValue := true, repeats := true },
      { name := "group", takesValue := true, repeats := true },
      { name := "pid", letter? := some 'p', takesValue := true, repeats := true },
      { name := "tid", letter? := some 't', takesValue := true, repeats := true },
      { name := "all", letter? := some 'a' },
      { name := "cpu", takesValue := true },
      { name := "freq", letter? := some 'F', takesValue := true },
      { name := "period", letter? := some 'c', takesValue := true },
      { name := "frame-pointers", letter? := some 'g', onlyLetter := true },
      { name := "call-graph", takesValue := true },
      { name := "branch-any", letter? := some 'b' },
      { name := "no-inherit" },
      { name := "duration", takesValue := true },
      { name := "cpu-hotplug-interval", takesValue := true },
      { name := "mmap-pages", letter? := some 'm', takesValue := true },
      { name := "output", letter? := some 'o', takesValue := true }]
  take a
    | .value "event" text => some { a with events := a.events ++ commaValues text }
    | .value "group" text => some { a with groups := a.groups ++ [text] }
    | .value "pid" text =>
      ((commaValues text).mapM pid?).map fun pids => { a with pids := a.pids ++ pids }
    | .value "tid" text =>
      ((commaValues text).mapM pid?).map fun tids => { a with tids := a.tids ++ tids }
    | .flag "all" => some { a with systemWide := true }
    | .value "cpu" text => some { a with cpus? := some text }
    | .value "freq" text => (Numeral.u64? text).map ({ a with freq? := some · })
    | .value "period" text => (Numeral.u64? text).map ({ a with period? := some · })
    | .flag "frame-pointers" => some { a with chains? := some .framePointers }
    | .value "call-graph" text => (chainMethod? text).map ({ a with chains? := some · })
    | .flag "branch-any" => some { a with branches := true }
    | .flag "no-inherit" => some { a with noInherit := true }
    | .value "duration" text => (Duration.parse? text).map ({ a with duration? := some · })
    | .value "cpu-hotplug-interval" text =>
      (Duration.parse? text).map ({ a with hotplugInterval := · })
    | .value "mmap-pages" text =>
      (Numeral.unsigned? 10 UInt64.size text.toList).map ({ a with pages? := some · })
    | .value "output" text => (pathValue? text).map ({ a with output := · })
    | _ => none
  conflicts :=
    [("all", "pid"), ("all", "tid"), ("freq", "period"), ("frame-pointers", "call-graph")]

open Recorder Recording

/-- A step of the machine within a recording. -/
def machine (x : Effect Machine α) : Recording Recorder α := outside (onMachine x)

def machine' (x : StateM Machine α) : Recording Recorder α := outside' (onMachine' x)

def defaultEvent : String := "cpu-cycles"

/-- What is sampled if that cannot be. -/
def fallbackEvent : String := "cpu-clock"

def anyBranch : UInt64 := 8

def addEach (add : String → Recording Recorder Unit) : List String → Recording Recorder Unit
  | [] => return
  | name :: rest => do
    add name
    addEach add rest

/-- The events of a group, of which blank ones do not count. -/
def groupNames (text : String) : List String := (commaValues text).filter (!·.isEmpty)

/-- Select the default event if no other is selected. -/
def addDefault : Recording Recorder Unit := do
  if !(← getSet).groups.isEmpty then return
  match ← Effect.observe (addEvent host defaultEvent) with
  | .ok () => return
  | .error cause =>
    machine' (Machine.note (.eventReplaced defaultEvent cause fallbackEvent))
    addEvent host fallbackEvent

def addProcesses : List UInt32 → Recording Recorder Unit
  | [] => return
  | pid :: rest => do
    if !(← machine' (Machine.processExists pid.toNat)) then Effect.refuse (.noProcess pid.toNat)
    modifySet (·.addProcess pid)
    addProcesses rest

/-- Select events and whom they are recorded for. -/
def select (a : RecordArguments) : Recording Recorder Unit := do
  if !a.systemWide && a.pids.isEmpty && a.tids.isEmpty then Effect.refuse .noRecordTarget
  addEach (addEvent host) a.events
  addEach (fun text => addGroup host (groupNames text)) a.groups
  addDefault
  modifySet fun set => match a.freq?, a.period? with
    | some freq, _ => set.setSampleFreq freq
    | none, some period => set.setSamplePeriod period
    | none, none => set.useDefaultSampleFreq
  modifySet (·.setInherit !a.noInherit)
  match a.chains? with
  | some .framePointers => enableFramePointerChains host
  | some (.stackDumps size) => enableDwarfChains host size
  | none => pure ()
  if a.branches then setBranchSampling host anyBranch
  if a.systemWide then modifySet (·.setSystemWide)
  addProcesses a.pids
  modifySet fun set => a.tids.foldl (fun set tid => set.addThread tid.toInt32) set

/-- The number of pages to map when none is given. -/
def mostPages : Nat := 256

/-! ## What was there before -/

/-- Numbers in ascending order, each once. -/
def ascending (ns : List Nat) : List Nat := (ns.mergeSort (· ≤ ·)).eraseReps

/-- The processes that the threads belong to, as far as they are known. -/
def processesOf : List UInt32 → StateM Machine (List Nat)
  | [] => return []
  | tid :: rest => do
    let pid? ← Machine.processOf? tid.toNat
    return pid?.toList ++ (← processesOf rest)

def targets (a : RecordArguments) : Effect Machine (List Nat) := do
  if a.systemWide then return ascending (← Machine.allProcesses)
  let owners ← Effect.ofState (processesOf a.tids)
  return ascending (a.pids.map UInt32.toNat ++ owners)

def namedThreads (pid : Nat) : List Nat → StateM Machine (List (UInt32 × String))
  | [] => return []
  | tid :: rest => do
    let name? ← Machine.threadName? pid tid
    return name?.toList.map (UInt32.ofNat tid, ·) ++ (← namedThreads pid rest)

/-- A process as it is found, if it is still there. -/
def snapshot? (pid : Nat) : StateM Machine (Option ProcessSnapshot) := do
  let some tids ← Machine.option? (Machine.threadIds pid) | return none
  let threads ← namedThreads pid tids
  let mappings? ← Machine.option? (Machine.executableMappings pid)
  return some { pid := UInt32.ofNat pid, threads, mappings := mappings?.getD [] }

def snapshots : List Nat → StateM Machine (List ProcessSnapshot)
  | [] => return []
  | pid :: rest => do
    let found? ← snapshot? pid
    return found?.toList ++ (← snapshots rest)

/-- The recorder's own records about the kernel. -/
def aboutKernel (sampleId : SampleId) : StateM Machine (List Record) := do
  match ← Machine.kernelStart? with
  | some start =>
    let symbols? ← Machine.option? (Machine.readBytes Machine.kernelSymbolsPath)
    return kernelRecords sampleId start symbols?
  | none =>
    Machine.note .kernelHidden
    return []

/-- The recorder's own records. -/
def synthesize (a : RecordArguments) : Recording Recorder (List Record) := do
  let set ← getSet
  let sampleId := syntheticSampleId set.attrsWithIds
  let kernel ← if set.needsKernelSymbols then machine' (aboutKernel sampleId) else pure []
  let found ← machine' (snapshots (← machine (targets a)))
  return kernel ++ found.flatMap (·.records sampleId)

def takeEach : List Record → Effect Recorder Unit
  | [] => return
  | r :: rest => do
    take r
    takeEach rest

/-! ## Recording -/

def defaultInterval : Nat := 2 * nanosPerSecond

def endSignals : List Nat := [Signal.interrupt, Signal.terminate, Signal.hangup]

/-- Open and map the events, write the head of the file, and record. -/
def recordEvents (a : RecordArguments) : Recording Recorder Unit := do
  machine' (Machine.checkRestriction a.systemWide)
  select a
  let cpus ← match a.cpus? with
    | some text => Effect.ofExcept ((CpuList.parse text).mapError .misuse)
    | none => pure []
  openEvents host cpus
  mapEvents host (a.pages?.getD leastPages) (a.pages?.getD mostPages)
  machine (Machine.createFile a.output)
  let attrs := (← getSet).attrsWithIds
  outside (write (·.writeAttrs attrs))
  outside (takeEach (← synthesize a))
  attach
  let interval := a.hotplugInterval.nanos
  watchCpus host cpus (if interval = 0 then defaultInterval else interval)
  modify fun s => { s with loop := s.loop.addSignals endSignals .stop }
  if let some duration := a.duration? then
    let _ ← addTimer host duration.nanos .stop
  machine (Machine.remark s!"Recording to {a.output}... Press Ctrl+C to stop.")
  enableEvents host
  let completed ← run host
  disableEvents host
  let drained ← finish host
  if !completed || !drained then throw (.io (.stoppedEarly a.output))

/-! ## Features -/

def version : String := "0.1.0"

/-- The build ids of files, as far as they have one. -/
def buildIdRecords : List String → StateM Machine (List BuildIdRecord)
  | [] => return []
  | name :: rest => do
    let bytes? ← if name.startsWith "/" then Machine.option? (Machine.mapBytes name) else pure none
    let buildId? := do (← (Binary.readBuildId (← bytes?)).toOption)
    return buildId?.toList.map
      ({ misc := userMode, pid := 0xffffffff, buildId := ·, filename := name }) ++
        (← buildIdRecords rest)

/-- How many cpus a step finds, none if it fails. -/
def countCpus (x : Effect Machine (List Nat)) : StateM Machine UInt32 :=
  return UInt32.ofNat (((← Machine.option? x).map List.length).getD 0)

/-- What is known about a recording as a whole. -/
def metaInfo (a : RecordArguments) (wallClock : Nat) (descs : List EventDesc) : MetaInfo :=
  OrderedMap.ofList
    [("rsperf_version", version),
      ("timestamp", Timestamp.text wallClock),
      ("system_wide_collection", toString a.systemWide),
      ("event_type_info", ",".intercalate (descs.map EventDesc.name))]

/-- The features of a recording, in the order in which they are found. -/
def features (a : RecordArguments) (files : List String) (descs : List EventDesc) :
    StateM Machine (List FeatureValue) := do
  let buildIds ← buildIdRecords files
  let hostname ← Machine.hostname
  let osRelease ← Machine.osRelease
  let available ← countCpus Machine.possibleCpus
  let online ← countCpus Machine.onlineCpus
  let settings := (← get).settings
  return [.buildIds buildIds, .hostname hostname, .osRelease osRelease, .arch Machine.arch,
      .commandLine settings.invocation, .cpuCounts { available, online }, .eventDescs descs] ++
    (if a.branches then [.branchStack] else []) ++
    [.metaInfo (metaInfo a settings.wallClock descs)]

def writeFeatures : List FeatureValue → Effect Recorder Unit
  | [] => return
  | v :: rest => do
    write (·.writeValue v)
    writeFeatures rest

def finishFile (a : RecordArguments) (descs : List EventDesc) : Effect Recorder Bytes := do
  let files := (← get).stats.mappedFiles.keys
  writeFeatures (← Effect.ofState (onMachine' (features a files descs)))
  Effect.ofExcept ((((← get).draft?.getD {}).close).mapError .misuse)

/-- How long a recording took: no time passes on the machine's wall clock. -/
def elapsed : String := "0.0"

/-- Record, and write the file as far as it has come. -/
def run (a : RecordArguments) : Effect Machine Unit := do
  let (result, session) := recordEvents a { world := { machine := ← get } }
  let descs := session.set.eventDescs
  let (_, session) := closeEvents host session
  let (file, recorder) := match result with
    | .ok () => finishFile a descs session.world
    | .error e => (.error e, session.world)
  set recorder.machine
  match file, recorder.draft? with
  | .ok bytes, _ =>
    Machine.writeBytes a.output bytes
    let stats := recorder.stats
    Machine.remark
      s!"Recorded {stats.samples} samples ({stats.records} records) in {elapsed}s to {a.output}"
    if 0 < stats.lost then
      Machine.remark s!"Lost {stats.lost} samples; try a larger -m or a lower -F"
  | .error e, some draft =>
    Machine.writeBytes a.output draft.unfinished
    throw e
  | .error e, none => throw e

end RecordCommand

def Command.record : Command :=
  .ofGrammar "record" "record samples of perf events" RecordCommand.grammar {} RecordCommand.run

end Profiler
