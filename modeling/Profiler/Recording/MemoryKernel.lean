/-
# A kernel in memory

A kernel that a recording can be tried out on: it opens descriptors by the
rules it is given, keeps what is put into the buffer of each cpu until it is
drained, and lists the calls that succeeded. Its clock stands still but for a
tick at each poll that finds data, and goes to the next deadline otherwise.

Key definitions: `MemoryKernel`, `MemoryKernel.Rules`, `MemoryKernel.Call`,
`MemoryKernel.put`, `MemoryKernel.host`.
-/
import Profiler.Recording.Hotplug

namespace Profiler
namespace MemoryKernel

/-- The calls on a descriptor that rules can make fail. -/
inductive Operation where
  | enable
  | disable
  | counter
  | map
  | share
  | drain
  deriving DecidableEq, Repr

def Operation.name : Operation → String
  | enable => "enable"
  | disable => "disable"
  | counter => "counter"
  | map => "map"
  | share => "share"
  | drain => "drain"

/-- An event that is refused on a cpu. -/
structure Refusal where
  config : UInt64
  cpu : Nat
  /-- Whether it is for want of privilege. -/
  privilege : Bool
  deriving DecidableEq, Repr

/-- What the kernel refuses. -/
structure Rules where
  online : List Nat := [0, 1]
  onlineFails : Bool := false
  rejectedConfigs : List UInt64 := []
  /-- Sample fields that no attr may have. -/
  rejectedFields : SampleMask := 0
  rejectsBranches : Bool := false
  /-- Of the refusals that apply to an open, the first one decides. -/
  refusals : List Refusal := []
  maxPages : Nat := 256
  failing : Operation → List Descriptor := fun _ => []

/-- A call that succeeded. -/
inductive Call where
  | opened (d : Descriptor) (attr : Attr) (tid : Pid) (cpu : Nat) (leader? : Option Descriptor)
  | enabled (d : Descriptor)
  | disabled (d : Descriptor)
  | counted (d : Descriptor)
  | mapped (d : Descriptor) (pages : Nat)
  | shared (d owner : Descriptor)
  | unmapped (d : Descriptor)
  | drained (d : Descriptor) (bytes : Nat)
  | closed (d : Descriptor)
  deriving DecidableEq, Repr

end MemoryKernel

open MemoryKernel

/-- The kernel, and the records that were taken from the recording on it. -/
structure MemoryKernel where
  rules : Rules := {}
  /-- The descriptors that were opened so far. -/
  opened : Nat := 0
  /-- The cpu of each open descriptor. -/
  live : OrderedMap Descriptor Nat := ⟨[]⟩
  /-- The descriptor that mapped the buffer of each cpu last. -/
  owners : OrderedMap Nat Descriptor := ⟨[]⟩
  /-- What lies in the buffer of each cpu. -/
  pending : OrderedMap Nat Bytes := ⟨[]⟩
  /-- The descriptors that poll finds data for. -/
  readable : List Descriptor := []
  clock : Nat := 0
  /-- The calls, the last one first. -/
  calls : List Call := []
  /-- The records that were taken, the last one first. -/
  records : List Record := []
  notices : List Notice := []
  /-- How many records are still taken with the wish for more. -/
  wanted? : Option Nat := none

namespace MemoryKernel

def log (k : MemoryKernel) (c : Call) : MemoryKernel := { k with calls := c :: k.calls }

/-- Put data into the buffer of a cpu and wake whoever waits for it. -/
def put (k : MemoryKernel) (cpu : Nat) (bs : Bytes) : MemoryKernel :=
  { k with
    pending := k.pending.insert cpu (((k.pending.get? cpu).getD []) ++ bs)
    readable := match k.owners.get? cpu with
      | some d => d :: k.readable
      | none => k.readable }

/-- Take records from now on, and want no more when so many have come. -/
def take (k : MemoryKernel) (count? : Option Nat) : MemoryKernel :=
  { k with wanted? := count?.map (· - 1) }

def openEvent (attr : Attr) (tid : Pid) (cpu : Nat) (leader? : Option Descriptor) :
    Effect MemoryKernel (Descriptor × UInt64) := do
  let k ← get
  match k.rules.refusals.find? fun r => r.config == attr.config && r.cpu == cpu with
  | some r =>
    let words := s!"open on cpu {cpu} refused"
    throw (if r.privilege then .refusedAccess words else .failedDescriptor words)
  | none => pure ()
  if !k.rules.online.contains cpu then throw (.failedDescriptor s!"cpu {cpu} is offline")
  let d := k.opened + 1
  set ({ k with opened := d, live := k.live.insert d cpu }.log (.opened d attr tid cpu leader?))
  return (d, UInt64.ofNat d)

def close (d : Descriptor) : StateM MemoryKernel Unit :=
  modify fun k => { k with live := k.live.erase d }.log (.closed d)

def isSupported (attr : Attr) : StateM MemoryKernel Bool := do
  let rules := (← get).rules
  return !(rules.rejectedConfigs.contains attr.config ||
    attr.sampleType &&& rules.rejectedFields != 0 || (rules.rejectsBranches && attr.branchSampleType != 0))

def onlineCpus : Effect MemoryKernel (List Nat) := do
  let rules := (← get).rules
  if rules.onlineFails then throw (.unavailable "no cpu list") else return rules.online

/-- Fail if the rules say so. -/
def check (op : Operation) (d : Descriptor) : Effect MemoryKernel Unit := do
  if ((← get).rules.failing op).contains d then
    throw (.failedDescriptor s!"{op.name} of {d} failed")

def attempt (op : Operation) (call : Descriptor → Call) (d : Descriptor) :
    Effect MemoryKernel Unit := do
  check op d
  modify (·.log (call d))

/-- The readings tell the descriptors apart. -/
def readCounter (d : Descriptor) : Effect MemoryKernel CounterValue := do
  attempt .counter .counted d
  let id := UInt64.ofNat d
  return { value := 10 * id, timeEnabled := 100 + id, timeRunning := 50, id }

def map (d : Descriptor) (pages : Nat) : Effect MemoryKernel Unit := do
  check .map d
  if (← get).rules.maxPages < pages then
    throw (.failedDescriptor s!"cannot map {pages} pages for {d}")
  modify fun k =>
    { k with owners := match k.live.get? d with
        | some cpu => k.owners.insert cpu d
        | none => k.owners }.log (.mapped d pages)

def share (d owner : Descriptor) : Effect MemoryKernel Unit :=
  attempt .share (.shared · owner) d

def unmap (d : Descriptor) : StateM MemoryKernel Unit := modify (·.log (.unmapped d))

/-- Take all data of a descriptor's cpu; they are lost if the call fails. -/
def drain (d : Descriptor) : Effect MemoryKernel Bytes := do
  let k ← get
  let cpu := (k.live.get? d).getD 0
  let data := (k.pending.get? cpu).getD []
  set { k with pending := k.pending.erase cpu, readable := k.readable.filter (· != d) }
  check .drain d
  modify (·.log (.drained d data.length))
  return data

def deliver (r : Record) : StateM MemoryKernel Bool := do
  let k ← get
  set { k with records := r :: k.records, wanted? := k.wanted?.map (· - 1) }
  return k.wanted? ≠ some 0

def readiness (k : MemoryKernel) : EventSource → Readiness
  | .descriptor d =>
    if !k.live.contains d then .hungUp else if k.readable.contains d then .readable else .idle
  | _ => .idle

/-- How much later each poll is that finds data, in nanoseconds. -/
def tick : Nat := 1000

def poll (sources : List EventSource) (deadline : Option Nat) (k : MemoryKernel) :
    Except IoFailure (List Readiness) × MemoryKernel :=
  let answers := sources.map k.readiness
  let clock := if answers.all (· == .idle) then max k.clock (deadline.getD k.clock)
    else k.clock + tick
  (.ok answers, { k with clock })

/-- The kernel as the outside of a recording. It knows no process and no
tracepoint. -/
def host : Host MemoryKernel where
  openEvent := openEvent
  close := close
  isSupported := isSupported
  onlineCpus := onlineCpus
  threadIds pid := Effect.refuse (.threadList pid (.os 2))
  tracepointId? _ _ := pure none
  enable := attempt .enable .enabled
  disable := attempt .disable .disabled
  readCounter := readCounter
  map := map
  share := share
  unmap := unmap
  drain := drain
  deliver := deliver
  note n := modify fun k => { k with notices := n :: k.notices }
  poll := poll
  takeSignals _ k := (0, k)
  now := clock

end MemoryKernel
end Profiler
