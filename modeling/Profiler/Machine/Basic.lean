/-
# The machine that a program runs on

What a program sees of its machine: files, a kernel that opens descriptors for
events, signals, and a place to print to. What the kernel will do is fixed by
settings, so that all a program does is a function of its machine.

A path that begins with a slash leads into the files of the machine, any other
into those of the working directory.

Key definitions: `Machine`, `Machine.Settings`, `Machine.Call`,
`Machine.readBytes`, `Machine.mapBytes`, `Machine.readText`,
`Machine.printLine`.
-/
import Profiler.Effect
import Profiler.Machine.FileTree
import Profiler.Machine.Ring
import Profiler.Recording.Host

namespace Profiler
namespace Machine

/-- The calls on a descriptor. -/
inductive Operation where
  | enable
  | disable
  /-- Send the records to the buffer of another descriptor. -/
  | redirect
  | map
  deriving DecidableEq, Repr

namespace Operation

def name : Operation → String
  | enable => "enable"
  | disable => "disable"
  | redirect => "set_output"
  | map => "mmap"

def ofName? (s : String) : Option Operation :=
  [enable, disable, redirect, map].find? (·.name == s)

end Operation

/-- An event that the kernel does not open. -/
structure Refusal where
  type : UInt32
  config : UInt64
  /-- The cpu that the refusal is for, if not for all. -/
  cpu? : Option Int
  errno : Nat
  deriving DecidableEq, Repr

/-- A call that fails. -/
structure Failure where
  operation : Operation
  descriptor : Descriptor
  errno : Nat
  deriving DecidableEq, Repr

/-- How a machine is made. -/
structure Settings where
  /-- The user that the program runs as. -/
  user : Nat := 0
  /-- What the file of the online cpus holds each time it is read; the last
  text stays. Without any it is a file like others. -/
  onlineTexts : List String := []
  /-- Of the refusals that apply to an open, the first one decides. -/
  refusals : List Refusal := []
  failures : List Failure := []
  /-- What is found in the buffers of each cpu as they are mapped. -/
  rings : List (Nat × List RingContent) := []
  maxPages : Nat := 256
  /-- How many bytes can be read from a descriptor in all. -/
  counterBytes : Nat := 4096
  /-- A signal that arrives once. -/
  signal? : Option Nat := none
  /-- The reading of the online cpus at which it arrives; without it, the first
  time that a descriptor is enabled. -/
  signalReading? : Option Nat := none
  /-- Seconds since 1970. -/
  wallClock : Nat := 0
  /-- The words with which the program was called. -/
  invocation : List String := ["rsperf"]
  /-- The error number of every open that the refusals leave, if the machine
  has no events at all. -/
  noEvents? : Option Nat := none

/-- A call of the kernel, and how it failed if it did. -/
inductive Call where
  | open (attr : Attr) (pid : Pid) (cpu : Int) (leader? : Option Descriptor)
    (result : Except Nat Descriptor)
  | control (operation : Operation) (d : Descriptor) (argument : Nat) (errno? : Option Nat)

/-- What the kernel knows about a descriptor. -/
structure OpenEvent where
  attr : Attr
  cpu : Nat
  /-- How often it has been read. -/
  readings : Nat := 0
  /-- The buffer that is mapped. -/
  ring? : Option Ring := none
  deriving DecidableEq, Repr

end Machine

open Machine

structure Machine where
  settings : Settings := {}
  /-- The files with absolute paths. -/
  root : FileTree := {}
  /-- The files of the working directory. -/
  work : FileTree := {}
  /-- How many descriptors have been opened. -/
  opened : Nat := 0
  events : OrderedMap Descriptor OpenEvent := ⟨[]⟩
  /-- How many buffers have been mapped on each cpu. -/
  mapped : OrderedMap Nat Nat := ⟨[]⟩
  /-- How often the online cpus have been read. -/
  onlineReadings : Nat := 0
  signalled : Bool := false
  /-- The signals that have arrived. -/
  signals : List Nat := []
  /-- Nanoseconds of the clock that timers go by. -/
  clock : Nat := 0
  /-- The calls of the kernel, the last one first. -/
  calls : List Call := []
  /-- What the user may want to know, the last one first. -/
  notices : List Notice := []
  /-- The paths that were looked at, the last one first. -/
  paths : List String := []
  /-- What was printed. -/
  printed : String := ""
  /-- What was printed for errors and progress. -/
  remarks : String := ""

namespace Machine

/-! ## Files -/

/-- The files that a path leads into. -/
def filesFor (m : Machine) (path : String) : FileTree :=
  if path.startsWith "/" then m.root else m.work

def look (path : String) : StateM Machine FileTree := do
  modify fun m => { m with paths := path :: m.paths }
  return (← get).filesFor path

def lookFor (path : String) (f : FileTree → String → Except IoFailure α) : Effect Machine α := do
  let files ← Effect.ofState (look path)
  Effect.ofExcept ((f files path).mapError .io)

def readBytes (path : String) : Effect Machine Bytes := lookFor path FileTree.read

def mapBytes (path : String) : Effect Machine Bytes := lookFor path FileTree.map

def names (path : String) : Effect Machine (List String) := lookFor path FileTree.names

def pathExists (path : String) : StateM Machine Bool := return (← look path).exists? path

def isDirectory (path : String) : StateM Machine Bool := return (← look path).isDirectory path

/-- Where a file is to be written anew. -/
def createFile (path : String) : Effect Machine Unit := do
  let _ ← lookFor path FileTree.create

def writeBytes (path : String) (bs : Bytes) : Effect Machine Unit := do
  let place ← lookFor path FileTree.create
  modify fun m =>
    if path.startsWith "/" then { m with root := m.root.put place (.file bs) }
    else { m with work := m.work.put place (.file bs) }

/-- The signal of the settings arrives, unless it has already. -/
def raise (m : Machine) : Machine :=
  match m.settings.signal? with
  | some n => if m.signalled then m else { m with signalled := true, signals := n :: m.signals }
  | none => m

def onlinePath : String := "/sys/devices/system/cpu/online"

def countOnlineReading : StateM Machine Unit := modify fun m =>
  let m := { m with onlineReadings := m.onlineReadings + 1 }
  if m.settings.signalReading? = some m.onlineReadings then m.raise else m

/-- What the online cpus read as now, if the settings say so. -/
def onlineText? (m : Machine) : Option String :=
  let texts := m.settings.onlineTexts
  texts[min m.onlineReadings texts.length - 1]?

def readText (path : String) : Effect Machine String := do
  if path = onlinePath then
    Effect.ofState countOnlineReading
    if let some text := (← get).onlineText? then return text
  lookFor path FileTree.readText

/-! ## Output -/

def print (text : String) : Effect Machine Unit :=
  modify fun m => { m with printed := m.printed ++ text }

def printLine (text : String) : Effect Machine Unit := print (text ++ "\n")

/-- Print for the user to see how it goes. -/
def remark (text : String) : Effect Machine Unit :=
  modify fun m => { m with remarks := m.remarks ++ text ++ "\n" }

def note (n : Notice) : StateM Machine Unit := modify fun m => { m with notices := n :: m.notices }

end Machine
end Profiler
