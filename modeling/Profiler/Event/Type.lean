/-
# Event types and their names

An event type is a kind of event that the kernel can count, under the name
that the command line uses. A name may end in modifiers after a colon, which
choose the privilege levels that count and how precise the address must be.
A tracepoint's own name holds a colon, so a whole text is tried as a name
before its modifiers are split off.

Key definitions: `EventType`, `EventType.builtins`, `EventType.find?`,
`EventSpec`, `EventSpec.parseWith`, `EventSpec.applyTo`, `EventType.attr`,
`eventName`.
-/
import Profiler.Attr
import Profiler.Text.Blank
import Profiler.Text.Numeral

namespace Profiler

/-- What the number of an event type's class stands for. -/
inductive EventClass where
  | hardware
  | software
  | tracepoint
  | raw
  deriving DecidableEq, Repr

def EventClass.code : EventClass → UInt32
  | hardware => 0
  | software => 1
  | tracepoint => 2
  | raw => 4

/-- A kind of event. -/
structure EventType where
  name : String
  type : UInt32
  config : UInt64
  deriving DecidableEq, Repr, Inhabited

namespace EventType

def isTracepoint (t : EventType) : Bool := t.type == EventClass.tracepoint.code

/-- The names of the hardware events, numbered from zero. -/
def hardwareNames : List String :=
  ["cpu-cycles", "instructions", "cache-references", "cache-misses", "branch-instructions",
    "branch-misses", "bus-cycles", "stalled-cycles-frontend", "stalled-cycles-backend"]

/-- The names of the software events, numbered from zero. -/
def softwareNames : List String :=
  ["cpu-clock", "task-clock", "page-faults", "context-switches", "cpu-migrations",
    "minor-faults", "major-faults", "alignment-faults", "emulation-faults"]

/-- The events of a class with these names, numbered from zero. -/
def numbered (c : EventClass) (names : List String) : List EventType :=
  names.zipIdx.map fun (name, i) => ⟨name, c.code, UInt64.ofNat i⟩

/-- The events that every kernel knows by number. -/
def builtins : List EventType :=
  numbered .hardware hardwareNames ++ numbered .software softwareNames

def raw? (name : String) : Option EventType :=
  match name.toList with
  | 'r' :: hex => (Numeral.hex64? (String.ofList hex)).map fun n => ⟨name, EventClass.raw.code, n⟩
  | _ => none

/-- The system and the event of a tracepoint's name. -/
def tracepointParts? (name : String) : Option (String × String) :=
  match Text.splitFirst? ':' name.toList with
  | some (system, event) =>
    if system.isEmpty || event.isEmpty || event.contains ':' || event.contains '/' ||
        system.contains '/' then none
    else some (String.ofList system, String.ofList event)
  | none => none

/-- The event with a name: one of the table, a raw one, or a tracepoint whose
number `tracepointId?` knows. -/
def find? (tracepointId? : String → String → Option UInt64) (name : String) : Option EventType :=
  match builtins.find? (·.name == name) with
  | some t => some t
  | none => match raw? name with
    | some t => some t
    | none => do
      let (system, event) ← tracepointParts? name
      return ⟨name, EventClass.tracepoint.code, ← tracepointId? system event⟩

/-- Samples a second when nothing else is asked for. -/
def defaultFreq : UInt64 := 4000

/-- Events per sample of a tracepoint when nothing else is asked for. -/
def defaultTracepointPeriod : UInt64 := 1

/-- The fields that every sample carries. -/
def commonSampleFields : List SampleField := [.ip, .tid, .time, .period, .cpu, .id]

/-- What a counter reading holds unless the attr is changed. -/
def commonReadFormat : ReadFormat :=
  ReadField.timeEnabled.mask ||| ReadField.timeRunning.mask ||| ReadField.id.mask

/-- The attr that every selected event starts from. -/
def attr (t : EventType) : Attr :=
  let base : Attr := { Attr.empty with
    type := t.type
    config := t.config
    readFormat := commonReadFormat
    sampleType := SampleMask.of commonSampleFields }
  let base := (((base.set .disabled true).set .mmap true).set .comm true).set .sampleIdAll true
  if t.isTracepoint then (base.addSampleFields [.raw]).setSamplePeriod defaultTracepointPeriod
  else base.setSampleFreq defaultFreq

end EventType

/-- The name of the event with these numbers. -/
def eventName (type : UInt32) (config : UInt64) : String :=
  match EventType.builtins.find? fun t => t.type == type && t.config == config with
  | some t => t.name
  | none =>
    if type = EventClass.raw.code then "r" ++ hexDigits config.toNat
    else if type = EventClass.tracepoint.code then s!"tracepoint:{config.toNat}"
    else s!"type{type.toNat}:config{config.toNat}"

/-- An event type with the modifiers it was asked for. -/
structure EventSpec where
  /-- The name as it was written. -/
  name : String
  eventType : EventType
  modifier : String := ""
  excludeUser : Bool := false
  excludeKernel : Bool := false
  excludeHv : Bool := false
  excludeHost : Bool := false
  excludeGuest : Bool := false
  preciseIp : UInt8 := 0
  deriving DecidableEq, Repr, Inhabited

namespace EventSpec

/-- What the letters of a modifier have named so far. -/
structure Letters where
  user : Bool := false
  kernel : Bool := false
  hv : Bool := false
  host : Bool := false
  guest : Bool := false
  /-- The count of `p`, in a byte. -/
  precision : UInt8 := 0
  deriving DecidableEq, Repr

/-- One more letter in the modifier of the event written as `name`. The count
of `p` is compared with its bound only after the last letter, so the byte that
it is kept in may overflow before. -/
def Letters.push (name : String) (l : Letters) : Char → Except Error Letters
  | 'u' => .ok { l with user := true }
  | 'k' => .ok { l with kernel := true }
  | 'h' => .ok { l with hv := true }
  | 'H' => .ok { l with host := true }
  | 'G' => .ok { l with guest := true }
  | 'p' =>
    if l.precision.toNat + 1 < UInt8.size then .ok { l with precision := l.precision + 1 }
    else .error .overflow
  | c => .error (.misuse (.modifier c name))

def letters (name : String) (modifier : List Char) : Except Error Letters :=
  modifier.foldlM (Letters.push name) {}

/-- The event with a modifier. Naming a privilege level excludes those that
are not named; host and guest exclude each other unless both are named. -/
def withModifier (name : String) (t : EventType) (modifier : List Char) :
    Except Error EventSpec := do
  let l ← letters name modifier
  if 3 < l.precision then throw (.misuse (.precision name))
  let leveled := l.user || l.kernel || l.hv
  return {
    name
    eventType := t
    modifier := String.ofList modifier
    excludeUser := leveled && !l.user
    excludeKernel := leveled && !l.kernel
    excludeHv := leveled && !l.hv
    excludeHost := l.guest && !l.host
    excludeGuest := l.host && !l.guest
    preciseIp := l.precision }

/-- Read `name` or `name:modifiers`, where `find?` knows the names. -/
def parseWith (find? : String → Option EventType) (text : String) : Except Error EventSpec :=
  match find? text with
  | some t => .ok { name := text, eventType := t }
  | none => match Text.splitLast? ':' text.toList with
    | none => .error (.misuse (.unknownEvent text))
    | some (name, modifier) => match find? (String.ofList name) with
      | some t => withModifier text t modifier
      | none => .error (.misuse (.unknownEvent text))

/-- Set what the modifiers decide in an attr. -/
def applyTo (e : EventSpec) (a : Attr) : Attr :=
  (((((a.set .excludeUser e.excludeUser).set .excludeKernel e.excludeKernel).set .excludeHv
    e.excludeHv).set .excludeHost e.excludeHost).set .excludeGuest e.excludeGuest).setPreciseIp
    e.preciseIp

/-- The attr that the event starts from. -/
def attr (e : EventSpec) : Attr := e.applyTo e.eventType.attr

end EventSpec
end Profiler
