/-
# Facts about the system

What the kernel tells about itself and its processes in files.

Key definitions: `Machine.onlineCpus`, `Machine.threadIds`,
`Machine.threadName?`, `Machine.executableMappings`, `Machine.kernelStart?`,
`Machine.tracepointId?`.
-/
import Profiler.Machine.Basic
import Profiler.Machine.CpuList
import Profiler.Machine.Mapping

namespace Profiler
namespace Machine

def pageSize : Nat := 4096

def arch : String := "x86_64"

def cpuList (path : String) : Effect Machine (List Nat) := do
  let text ← readText path
  Effect.ofExcept ((CpuList.parse text).mapError .misuse)

def onlineCpus : Effect Machine (List Nat) := cpuList onlinePath

def possibleCpus : Effect Machine (List Nat) := cpuList "/sys/devices/system/cpu/possible"

/-- What a step gives if it does not fail. -/
def option? (x : Effect Machine α) : StateM Machine (Option α) := fun m =>
  let (r, m) := x m
  (r.toOption, m)

def trimmedText? (path : String) : StateM Machine (Option String) :=
  return (← option? (readText path)).map Text.trim

/-- How much the kernel restricts those who record events. -/
def restriction? : StateM Machine (Option Int) := do
  let text? ← trimmedText? "/proc/sys/kernel/perf_event_paranoid"
  return text?.bind fun s => Numeral.signed? 10 (UInt32.size / 2) s.toList

def hostname : StateM Machine String :=
  return (← trimmedText? "/proc/sys/kernel/hostname").getD ""

def osRelease : StateM Machine String :=
  return (← trimmedText? "/proc/sys/kernel/osrelease").getD ""

/-- Where the kernel may show its tracepoints. -/
def tracepointRoots : List String :=
  ["/sys/kernel/tracing/events", "/sys/kernel/debug/tracing/events"]

def firstDirectory? : List String → StateM Machine (Option String)
  | [] => return none
  | path :: rest => do if ← isDirectory path then return some path else firstDirectory? rest

def tracepoints? : StateM Machine (Option String) := firstDirectory? tracepointRoots

def tracepointId? (system event : String) : StateM Machine (Option UInt64) := do
  let some root ← tracepoints? | return none
  return (← trimmedText? s!"{root}/{system}/{event}/id").bind Numeral.u64?

def numbersIn (names : List String) : List Nat :=
  (names.filterMap fun s => Numeral.unsigned? 10 UInt32.size s.toList).mergeSort (· ≤ ·)

def allProcesses : Effect Machine (List Nat) := return numbersIn (← names "/proc")

def threadIds (pid : Nat) : Effect Machine (List Nat) := do
  match ← Effect.observe (names s!"/proc/{pid}/task") with
  | .ok names => return numbersIn names
  | .error (.io cause) => Effect.refuse (.threadList pid cause)
  | .error e => throw e

def threadName? (pid tid : Nat) : StateM Machine (Option String) :=
  trimmedText? s!"/proc/{pid}/task/{tid}/comm"

/-- What stands in a text after the first line that begins with a label. -/
def labelled? (label text : String) : Option String :=
  (Text.lines text).findSome? fun line =>
    if line.startsWith label then some (String.ofList (line.toList.drop label.length)) else none

/-- The process that a thread belongs to. -/
def processOf? (tid : Nat) : StateM Machine (Option Nat) := do
  let status? ← option? (readText s!"/proc/{tid}/status")
  return (status?.bind (labelled? "Tgid:")).bind fun s =>
    Numeral.unsigned? 10 UInt32.size (Text.trimChars s.toList)

def processExists (pid : Nat) : StateM Machine Bool := pathExists s!"/proc/{pid}"

def executableMappings (pid : Nat) : Effect Machine (List Mapping) := do
  let text ← readText s!"/proc/{pid}/maps"
  return ((Text.lines text).filterMap Mapping.ofLine?).filter Mapping.isExecutable

def kernelSymbolsPath : String := "/proc/kallsyms"

/-- The address of the kernel's text, if a line of its symbols tells it. -/
def textStart? (line : String) : Option UInt64 :=
  match Text.words line with
  | addr :: _ :: "_text" :: _ => (Numeral.hex64? addr).filter (· != 0)
  | _ => none

/-- Where the kernel's text begins, unless that is hidden. -/
def kernelStart? : StateM Machine (Option UInt64) := do
  let text? ← option? (readText kernelSymbolsPath)
  return text?.bind fun text => (Text.lines text).findSome? textStart?

/-- Warn the user of a kernel that restricts recordings. -/
def checkRestriction (systemWide : Bool) : StateM Machine Unit := do
  let limit : Int := if systemWide then 0 else 1
  match ← restriction? with
  | some level => if limit < level ∧ (← get).settings.user ≠ 0 then note (.restricted level limit)
  | none => return

end Machine
end Profiler
