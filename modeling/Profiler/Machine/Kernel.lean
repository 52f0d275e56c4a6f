/-
# Events on a machine

A machine as the outside of a recording: its kernel opens descriptors for
events, gives readings of them, and writes into the buffers that are mapped.
A descriptor's readings are its number in a few forms; poll always finds every
descriptor readable, and lets the clock go on to the next deadline.

Key definitions: `Machine.openEvent`, `Machine.readCounter`, `Machine.map`,
`Machine.publish`, `Machine.drain`, `Machine.host`.
-/
import Profiler.Machine.Facts
import Profiler.Record.Decode
import Profiler.Recording.Buffers

namespace Profiler
namespace Machine

def log (m : Machine) (c : Call) : Machine := { m with calls := c :: m.calls }

/-- The error number with which an open is refused. -/
def refusal? (m : Machine) (attr : Attr) (cpu : Int) : Option Nat :=
  let refusal? := m.settings.refusals.find? fun r =>
    r.type == attr.type && r.config == attr.config && r.cpu?.all (· == cpu)
  (refusal?.map Refusal.errno).or m.settings.noEvents?

/-- Ask the kernel for a descriptor. A negative cpu is none in particular; what
is opened for it has no number of its own. -/
def request (attr : Attr) (pid : Pid) (cpu : Int) (leader? : Option Descriptor) :
    StateM Machine (Except Nat Descriptor) := do
  let m ← get
  let result := match m.refusal? attr cpu with
    | some errno => .error errno
    | none => .ok (if cpu < 0 then 0 else m.opened + 1)
  let m := m.log (.open attr pid cpu leader? result)
  set (match result with
    | .ok d =>
      let m := if cpu < 0 then m else { m with opened := d }
      { m with events := m.events.insert d { attr, cpu := cpu.toNat } }
    | .error _ => m)
  return result

def close (d : Descriptor) : StateM Machine Unit :=
  modify fun m => { m with events := m.events.erase d }

def updateEvent (d : Descriptor) (f : OpenEvent → OpenEvent) : StateM Machine Unit :=
  modify fun m => match m.events.get? d with
    | some e => { m with events := m.events.insert d (f e) }
    | none => m

/-- Try to open an event, to see whether the kernel takes the attr at all. -/
def isSupported (attr : Attr) : StateM Machine Bool := do
  let probe := ((attr.set .disabled true).set .enableOnExec false).set .inherit false
  match ← request probe 0 (-1) none with
  | .ok d =>
    close d
    return true
  | .error _ => return false

/-- The bytes that a reading takes. -/
def readingBytes : Nat := 64

/-- The readings of a descriptor that are more than zeros. -/
def fullReadings : Nat := 16

/-- What the descriptor `d` gives when it is read for the n-th time, from 0. -/
def reading (settings : Settings) (d : Descriptor) (n : Nat) : Bytes :=
  let id := UInt64.ofNat d
  let words := if n < fullReadings then [10 * id, 100 + id, 50, id, 0, 0, 0, 0]
    else List.replicate 8 0
  (Bytes.u64s words).take (settings.counterBytes - readingBytes * n)

def readCounter (d : Descriptor) : Effect Machine CounterValue := do
  let m ← get
  let some e := m.events.get? d | throw (.io (.os 9))
  Effect.ofState (updateEvent d fun e => { e with readings := e.readings + 1 })
  let format := e.attr.readFormat &&& ~~~ReadField.group.mask
  let values ← Effect.ofExcept
    ((ReadValues.decode format (reading m.settings d e.readings)).mapError .corrupt)
  let (value, id) := values.values.headD (0, 0)
  return { value, timeEnabled := values.timeEnabled, timeRunning := values.timeRunning, id }

/-- Open an event; its first reading tells its id. -/
def openEvent (attr : Attr) (tid : Pid) (cpu : Nat) (leader? : Option Descriptor) :
    Effect Machine (Descriptor × UInt64) := do
  if !attr.readFormat.has .id then Effect.refuse .idsNotRead
  match ← Effect.ofState (request attr tid (Int32.ofNat cpu).toInt leader?) with
  | .error errno => throw (.openRefused tid.toInt cpu errno)
  | .ok d => Effect.onFailure (return (d, (← readCounter d).id)) (Effect.ofState (close d))

/-- Do something with a descriptor, which may fail. -/
def control (operation : Operation) (argument : Nat) (errno? : Option Nat) (d : Descriptor) :
    Effect Machine Unit := do
  let failures := (← get).settings.failures
  let failure? := failures.find? fun f => f.operation == operation && f.descriptor == d
  let errno? := (failure?.map Failure.errno).or errno?
  modify (·.log (.control operation d argument errno?))
  match errno? with
  | some errno => throw (.io (.os errno))
  | none => return

/-- Enable a descriptor; the first time, the signal of the settings arrives if
it is not to arrive later. -/
def enable (d : Descriptor) : Effect Machine Unit := do
  control .enable 0 none d
  modify fun m => if m.settings.signalReading?.isNone then m.raise else m

def nextContent (m : Machine) (cpu : Nat) : RingContent :=
  let contents := (m.settings.rings.lookup cpu).getD []
  contents.getD ((m.mapped.get? cpu).getD 0) ⟨[], 0, none⟩

def map (d : Descriptor) (pages : Nat) : Effect Machine Unit := do
  if !isPowerOfTwo pages then Effect.refuse (.pageCount pages)
  let tooMany := (← get).settings.maxPages < pages
  control .map pages (if tooMany then some 12 else none) d
  let m ← get
  let cpu := ((m.events.get? d).map OpenEvent.cpu).getD 0
  let ring := (m.nextContent cpu).ring (pages * pageSize)
  set { m with mapped := m.mapped.insert cpu ((m.mapped.get? cpu).getD 0 + 1) }
  Effect.ofState (updateEvent d fun e => { e with ring? := some ring })

def ringOf? (m : Machine) (d : Descriptor) : Option Ring := (m.events.get? d).bind OpenEvent.ring?

def unmap (d : Descriptor) : StateM Machine Unit := updateEvent d fun e => { e with ring? := none }

def publish (d : Descriptor) (bs : Bytes) (excess : UInt64) : StateM Machine Unit :=
  updateEvent d fun e => { e with ring? := e.ring?.map fun r => r.publish bs excess }

/-- Read the buffer of a descriptor. -/
def drain (d : Descriptor) : Effect Machine Bytes := do
  match (← get).ringOf? d with
  | none => return []
  | some r =>
    let (bs, r) ← Effect.ofExcept (r.read.mapError .corrupt)
    Effect.ofState (updateEvent d fun e => { e with ring? := some r })
    return bs

def readiness (m : Machine) : EventSource → Readiness
  | .descriptor d => if m.events.contains d then .readable else .hungUp
  | .signal n => if m.signals.contains n then .readable else .idle
  | .timer _ _ => .idle

def poll (sources : List EventSource) (deadline : Option Nat) (m : Machine) :
    Except IoFailure (List Readiness) × Machine :=
  (.ok (sources.map m.readiness), { m with clock := max m.clock (deadline.getD m.clock) })

/-- Take a signal if it has arrived. -/
def takeSignals (n : Nat) (m : Machine) : Nat × Machine :=
  (m.signals.count n, { m with signals := m.signals.filter (· != n) })

/-- The machine as the outside of a recording whose records nobody takes. -/
def host : Host Machine where
  openEvent := openEvent
  close := close
  isSupported := isSupported
  onlineCpus := onlineCpus
  threadIds := threadIds
  tracepointId? := tracepointId?
  enable := enable
  disable := control .disable 0 none
  readCounter := readCounter
  map := map
  share d owner := control .redirect owner none d
  unmap := unmap
  drain := drain
  deliver _ := pure true
  note := note
  poll := poll
  takeSignals := takeSignals
  now := clock

end Machine
end Profiler
