/-
# What a recording needs of the outside

A recording opens descriptors, maps buffers, waits for data and hands records
on. All that it asks of the kernel and of the rest of the program is in a
`Host`, whose state is a parameter; so the same recording runs on a machine
and on a kernel that is only in memory.

Key definitions: `CounterValue`, `EventFile`, `Notice`, `Host`.
-/
import Profiler.Effect
import Profiler.EventLoop.Basic
import Profiler.Process.MapSet
import Profiler.Record.Basic

namespace Profiler

/-- A reading of a counter. -/
structure CounterValue where
  value : UInt64 := 0
  timeEnabled : UInt64 := 0
  timeRunning : UInt64 := 0
  id : UInt64 := 0
  deriving DecidableEq, Repr, Inhabited

/-- A sum of readings; it is about no descriptor in particular. -/
def CounterValue.add (a b : CounterValue) : CounterValue :=
  { a with
    value := a.value + b.value
    timeEnabled := a.timeEnabled + b.timeEnabled
    timeRunning := a.timeRunning + b.timeRunning }

/-- A descriptor's number among those that are open. -/
abbrev Descriptor := Nat

/-- An open descriptor for one event on one thread and cpu. -/
structure EventFile where
  descriptor : Descriptor
  /-- The id that the kernel gave, as records carry it. -/
  id : UInt64
  /-- The thread, or -1 for every thread. -/
  tid : Pid
  cpu : Nat
  /-- The descriptor that leads the group this one was opened in. -/
  leader? : Option Descriptor := none
  /-- Whether the descriptor has a buffer of its own. -/
  mapped : Bool := false
  /-- Whose buffer takes the records, once one does. -/
  buffer? : Option Descriptor := none
  deriving DecidableEq, Repr, Inhabited

/-- Something the user may want to know while a recording goes on. -/
inductive Notice where
  | cpuOffline (cpu : Nat)
  | cpuOnline (cpu : Nat)
  /-- A cpu that came online took no descriptor of an event. -/
  | reopenRefused (event : String) (tid : Pid) (cpu : Nat) (cause : Error)
  | drainFailed (cpu : Nat) (cause : Error)
  | hotplugFailed (cause : Error)
  | eventReplaced (event : String) (cause : Error) (instead : String)
  | restricted (level limit : Int)
  | kernelHidden
  deriving DecidableEq, Repr

namespace Notice

/-- How grave a notice is. -/
inductive Level where
  | info
  | warning
  | error
  deriving DecidableEq, Repr

def Level.name : Level → String
  | info => "info"
  | warning => "warn"
  | error => "error"

def level : Notice → Level
  | cpuOffline _ | cpuOnline _ | eventReplaced _ _ _ => .info
  | reopenRefused _ _ _ _ | restricted _ _ | kernelHidden => .warning
  | drainFailed _ _ | hotplugFailed _ => .error

def message : Notice → String
  | cpuOffline cpu => s!"cpu {cpu} is offline"
  | cpuOnline cpu => s!"cpu {cpu} is online"
  | reopenRefused event tid cpu cause =>
    s!"failed to open event {event} for {threadText tid.toInt} on cpu {cpu}: {cause.message}"
  | drainFailed cpu cause => s!"failed to read mapped buffer of cpu {cpu}: {cause.message}"
  | hotplugFailed cause => s!"failed to handle cpu hotplug: {cause.message}"
  | eventReplaced event cause instead =>
    s!"{event} is unavailable ({cause.message}), sampling {instead} instead"
  | restricted level limit =>
    s!"perf_event_paranoid={level}, recording may be restricted. " ++
      s!"Consider: sudo sysctl kernel.perf_event_paranoid={limit}"
  | kernelHidden => "kernel addresses are hidden, kernel samples will not be symbolized"

end Notice

/-- The outside of a recording. -/
structure Host (ω : Type) where
  /-- Open an event for a thread and cpu, as a member of the group that a
  descriptor leads; the descriptor and its id are given. -/
  openEvent : Attr → Pid → (cpu : Nat) → (leader : Option Descriptor) →
    Effect ω (Descriptor × UInt64)
  close : Descriptor → StateM ω Unit
  /-- Whether the kernel takes an attr at all. -/
  isSupported : Attr → StateM ω Bool
  onlineCpus : Effect ω (List Nat)
  /-- The threads of a process, in ascending order. -/
  threadIds : (pid : Nat) → Effect ω (List Nat)
  /-- The number of a tracepoint. -/
  tracepointId? : (system event : String) → StateM ω (Option UInt64)
  enable : Descriptor → Effect ω Unit
  disable : Descriptor → Effect ω Unit
  readCounter : Descriptor → Effect ω CounterValue
  /-- Map a buffer of a number of pages. -/
  map : Descriptor → (pages : Nat) → Effect ω Unit
  /-- Send a descriptor's records to the buffer of another. -/
  share : Descriptor → (owner : Descriptor) → Effect ω Unit
  unmap : Descriptor → StateM ω Unit
  /-- Take what a buffer holds. -/
  drain : Descriptor → Effect ω Bytes
  /-- Hand a record on; the answer is whether more are wanted. -/
  deliver : Record → StateM ω Bool
  note : Notice → StateM ω Unit
  poll : List EventSource → Option Nat → ω → Except IoFailure (List Readiness) × ω
  takeSignals : Nat → ω → Nat × ω
  now : ω → Nat

end Profiler
