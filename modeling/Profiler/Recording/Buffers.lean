/-
# Buffers of a recording

Each cpu has one buffer. The first descriptor on the cpu owns it and the
others send their records to it, so the records of a cpu come in one order.
What is drained is cut into records, each is decoded with the attr that its
event id belongs to, and handed on.

Key definitions: `pageCounts`, `Recording.mapFiles`, `Recording.mapEvents`,
`Recording.deliverRecords`, `Recording.drainCpu`, `Recording.finish`,
`Recording.attach`.
-/
import Profiler.File.Frame
import Profiler.Recording.Descriptors

namespace Profiler

def isPowerOfTwo (n : Nat) : Bool := 1 <<< n.log2 == n

/-- The page counts to try: `most`, and its halves down to `least`. -/
def pageCounts (least most : Nat) : List Nat :=
  if _h : most = 0 ∨ most < least then [] else most :: pageCounts least (most / 2)
termination_by most
decreasing_by omega

/-- The least number of pages of a buffer that is mapped for a single cpu. -/
def leastPages : Nat := 8

namespace EventFile

def own (f : EventFile) : EventFile := { f with mapped := true, buffer? := some f.descriptor }

def sendTo (owner : Descriptor) (f : EventFile) : EventFile := { f with buffer? := some owner }

def unmapped (f : EventFile) : EventFile := { f with mapped := false, buffer? := none }

end EventFile

namespace SelectionSet

def bufferCpus (s : SelectionSet) : List Nat :=
  (OrderedMap.ofList ((s.files.filter (·.mapped)).map fun f => (f.cpu, ()))).keys

def bufferOwner? (s : SelectionSet) (cpu : Nat) : Option Descriptor :=
  ((s.filesOn cpu).find? (·.mapped)).map EventFile.descriptor

/-- The attr that decodes an encoded record: that of its event id, or the
first one if the id is not known. -/
def attrFor? (s : SelectionSet) (bs : Bytes) : Option Attr :=
  let place? := do s.attrOfId.get? (← peekEventId (← s.idPositions) bs)
  s.decodeAttrs[place?.getD 0]?

end SelectionSet

namespace Recording

variable {ω : Type} (host : Host ω)

/-- Map a buffer for the first of the descriptors on each cpu, whose number is
among `owners` then, and send the records of the others to it. -/
def mapFiles (pages : Nat) (owners : OrderedMap Nat Descriptor) :
    List EventFile → Recording ω Unit
  | [] => return
  | file :: rest => do
    let d := file.descriptor
    match owners.get? file.cpu with
    | some owner =>
      outside (host.share d owner)
      modifySet (·.updateFile d (EventFile.sendTo owner))
      mapFiles pages owners rest
    | none =>
      outside (host.map d pages)
      modifySet (·.updateFile d EventFile.own)
      mapFiles pages (owners.insert file.cpu d) rest

/-- Take the buffers of descriptors away. -/
def unmapFiles : List EventFile → Recording ω Unit
  | [] => return
  | file :: rest => do
    outside' (host.unmap file.descriptor)
    modifySet (·.updateFile file.descriptor EventFile.unmapped)
    unmapFiles rest

/-- Map buffers for descriptors, or leave none of them mapped. -/
def mapAll (pages : Nat) (files : List EventFile) : Recording ω Unit :=
  Effect.onFailure (mapFiles host pages ⟨[]⟩ files) (unmapFiles host files)

/-- Map with the first page count that the kernel takes. -/
def mapFirst (failure? : Option Error) : List Nat → Recording ω Unit
  | [] => throw (failure?.getD (.misuse .noPages))
  | pages :: rest => do
    match ← Effect.observe (mapAll host pages (← getSet).files) with
    | .ok () => modifySet fun set => { set with pages }
    | .error e => mapFirst (some e) rest

/-- Map a buffer for each cpu: of `most` pages, or of half as many again and
again, but not of less than `least`. -/
def mapEvents (least most : Nat) : Recording ω Unit := do
  if !isPowerOfTwo least || !isPowerOfTwo most || most < least then
    Effect.refuse (.pageRange least most)
  mapFirst host none (pageCounts least most)

def mapCpu (cpu : Nat) : Recording ω Unit := do
  let set ← getSet
  mapAll host (max set.pages leastPages) (set.filesOn cpu)

/-- Hand a record on if someone takes records. -/
def deliver (r : Record) : Recording ω Bool := do
  if (← getSet).attached then outside' (host.deliver r) else return true

/-- Decode records and hand them on until one is refused. -/
def deliverCut : List RawRecord → Recording ω Bool
  | [] => return true
  | raw :: rest => do
    let some attr := (← getSet).attrFor? raw.bytes | throw (.misuse .noEvents)
    let record ← Effect.ofExcept ((Record.decode attr raw.bytes).mapError .corrupt)
    if ← deliver host record then deliverCut rest else return false

/-- Hand on the records of a buffer. Those before a fault have been handed on
when it is reported. -/
def deliverRecords (data : Bytes) : Recording ω Bool := do
  let misfit := fun (h : RecordHeader) position =>
    Corruption.ringRecord h.type.toNat h.size.toNat position
  let cut := cutRecords misfit 0 data
  if ← deliverCut host cut.values then
    match cut.fault? with
    | some fault => throw (.corrupt fault)
    | none => return true
  else return false

/-- Drain the buffer of a cpu once. The answer is false if a record was
refused. -/
def drainCpu (cpu : Nat) : Recording ω Bool := do
  match (← getSet).bufferOwner? cpu with
  | none => return true
  | some owner => deliverRecords host (← outside (host.drain owner))

def drainCpus : List Nat → Recording ω Bool
  | [] => return true
  | cpu :: rest => do
    if ← drainCpu host cpu then drainCpus rest else return false

/-- Drain every buffer a last time: what lies below the watermark of a buffer
has woken nobody. -/
def finish : Recording ω Bool := do drainCpus host (← getSet).bufferCpus

/-- Let the loop wait for the buffer of a cpu. -/
def watchBuffer (cpu : Nat) : Recording ω Unit := do
  match (← getSet).bufferOwner? cpu with
  | none => return
  | some owner =>
    modify fun s =>
      let (handle, loop) := s.loop.add (.descriptor owner) (.drain cpu)
      { s with loop, set := { s.set with readEvents := s.set.readEvents.insert cpu handle } }

def watchBuffers : List Nat → Recording ω Unit
  | [] => return
  | cpu :: rest => do
    watchBuffer cpu
    watchBuffers rest

/-- Hand records on from now on, and let the loop wait for every buffer. -/
def attach : Recording ω Unit := do
  modifySet fun set => { set with attached := true }
  watchBuffers (← getSet).bufferCpus

end Recording
end Profiler
