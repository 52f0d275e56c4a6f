/-
# Reading a record file

`RecordFile.ofBytes` checks a file as a whole: every section it points to lies
in the file and meets no other. What it gives can then be asked for features
and be read record by record, in file order or in the order of time. While it
is read, records that announce event ids extend the table that says which attr
decodes a record.

Key definitions: `RecordFile`, `RecordFile.ofBytes`, `RecordFile.visit`,
`RecordFile.readAll`, `RecordFile.featurePayload?`.
-/
import Profiler.File.Frame
import Profiler.File.Payload
import Profiler.Record.EventId
import Profiler.Record.Reorder

namespace Profiler

/-- A record file whose sections have been checked. -/
structure RecordFile where
  /-- The name it was opened by. -/
  path : String
  bytes : Bytes
  header : FileHeader
  attrs : List AttrWithIds
  features : OrderedMap Feature Section
  /-- The index of the attr that each event id belongs to. -/
  idToAttr : OrderedMap UInt64 Nat
  /-- Where to find the id of an encoded record, when there are several attrs. -/
  idPositions? : Option IdPositions
  deriving Repr

namespace RecordFile

/-- The bytes of a range, or the fault that it leaves the file. -/
def range (file : Bytes) (s : Section) : Except Corruption Bytes :=
  if s.fits file.length then .ok (s.slice file)
  else .error (.rangeOutside s.offset.toNat s.size.toNat file.length)

/-- The ids of one entry of the attr table, given the entries before it. The
number is the entry's, counted from 1. -/
def readIds (h : FileHeader) (file : Bytes) (earlier : List FileAttr) (number : Nat)
    (entry : FileAttr) : Except Corruption (List UInt64) := do
  if entry.ids.size % 8 ≠ 0 then throw (.idListSize entry.ids.size.toNat)
  match h.fixedSections.find? fun s => s.2.overlaps entry.ids with
  | some (name, _) => throw (.idListOverlap number name)
  | none => pure ()
  match earlier.findIdx? fun f => f.ids.overlaps entry.ids with
  | some other => throw (.idListsOverlap (other + 1) number)
  | none => pure ()
  let ids ← range file entry.ids
  return ids.words (ids.length / 8)

/-- The attrs with their ids, given the entries that are done, last one first. -/
def readAttrsAfter (h : FileHeader) (file : Bytes) (doneRev : List FileAttr) :
    List FileAttr → Except Corruption (List AttrWithIds)
  | [] => .ok []
  | entry :: rest => do
    let ids ← readIds h file doneRev.reverse (doneRev.length + 1) entry
    let others ← readAttrsAfter h file (entry :: doneRev) rest
    return ⟨entry.attr, ids⟩ :: others

def readEntries (h : FileHeader) (file : Bytes) : Except Corruption (List FileAttr) := do
  let table ← range file h.attrs
  let entrySize := h.attrSize.toNat
  ((table.chunks entrySize).filter fun c => c.length = entrySize).mapM FileAttr.decode

def readAttrs (h : FileHeader) (file : Bytes) : Except Corruption (List AttrWithIds) := do
  let entries ← readEntries h file
  if entries.isEmpty then throw .noAttrs
  readAttrsAfter h file [] entries

/-- Add the place of one feature, whose table ends at `tableEnd`. -/
def addFeature (file : Bytes) (tableEnd : Nat) (known : OrderedMap Feature Section)
    (f : Feature) (s : Section) : Except Corruption (OrderedMap Feature Section) := do
  if s.size ≠ 0 ∧ s.offset.toNat < tableEnd then throw (.featureInData (featureName f))
  let _ ← range file s
  match known.entries.find? fun e => e.2.overlaps s with
  | some (other, _) => throw (.featuresOverlap (featureName f) (featureName other))
  | none => return known.insert f s

/-- The places of the features, in the order of their numbers. -/
def readFeatures (h : FileHeader) (file : Bytes) :
    Except Corruption (OrderedMap Feature Section) := do
  let table ← range file h.featureTable
  (h.featureIds.zip (table.chunks Section.byteSize)).foldlM (fun known (f, bs) => do
    let s ← Section.parse.value bs
    addFeature file (h.featureTable.offset.toNat + h.featureTable.size.toNat) known f s) ⟨[]⟩

/-- The attr index of every id of the table; a later attr takes an id from an
earlier one. -/
def tableOfIds (attrs : List AttrWithIds) : OrderedMap UInt64 Nat :=
  OrderedMap.ofList (attrs.zipIdx.flatMap fun (a, i) => a.ids.map (·, i))

/-- Check a file and read its tables. -/
def ofBytes (path : String) (file : Bytes) : Except Error RecordFile := do
  if file.length < fileHeaderSize then throw (.corrupt (.fileTooSmall path file.length))
  let header ← FileHeader.parse.value file
  header.check file.length
  let attrs ← readAttrs header file
  let idPositions? ←
    if 1 < attrs.length then
      some <$> (commonIdPositions (attrs.map AttrWithIds.attr)).mapError Error.misuse
    else pure none
  let features ← readFeatures header file
  return { path, bytes := file, header, attrs, features, idToAttr := tableOfIds attrs,
           idPositions? }

def featurePayload? (f : RecordFile) (feature : Feature) : Option Bytes :=
  (f.features.get? feature).map fun s => s.slice f.bytes

def optional (f : RecordFile) (feature : Feature) (decode : Bytes → Except Corruption α) :
    Except Corruption (Option α) :=
  match f.featurePayload? feature with
  | some bs => some <$> decode bs
  | none => .ok none

def hostname (f : RecordFile) : Except Corruption (Option String) :=
  f.optional Feature.hostname LengthText.decode

def osRelease (f : RecordFile) : Except Corruption (Option String) :=
  f.optional Feature.osRelease LengthText.decode

def arch (f : RecordFile) : Except Corruption (Option String) :=
  f.optional Feature.arch LengthText.decode

def nrCpus (f : RecordFile) : Except Corruption (Option CpuCounts) :=
  f.optional Feature.nrCpus CpuCounts.decode

def commandLine (f : RecordFile) : Except Corruption (List String) :=
  (·.getD []) <$> f.optional Feature.cmdline CommandLineFeature.decode

def buildIds (f : RecordFile) : Except Corruption (List BuildIdRecord) :=
  (·.getD []) <$> f.optional Feature.buildId BuildIdList.decode

def metaInfo (f : RecordFile) : Except Corruption MetaInfo :=
  (·.getD ⟨[]⟩) <$> f.optional Feature.metaInfo MetaInfo.decode

def eventDescs (f : RecordFile) : Except Corruption (List EventDesc) :=
  (·.getD []) <$> f.optional Feature.eventDesc EventDesc.decode

def fileEntries (f : RecordFile) : Except Corruption (List FileEntry) :=
  (·.getD []) <$> f.optional Feature.file FileEntry.decodeList

/-- Whether every record says when it was made, without which sorting means
nothing. -/
def hasTimestamp (f : RecordFile) : Bool :=
  f.attrs.all fun a => a.attr.has .sampleIdAll && a.attr.sampleType.has .time

def firstAttr (f : RecordFile) : Attr :=
  match f.attrs with
  | a :: _ => a.attr
  | [] => {}

/-- The attr that decodes an encoded record: the one its id belongs to, or the
first. -/
def attrFor (f : RecordFile) (bs : Bytes) : Attr :=
  let index? := do
    let positions ← f.idPositions?
    let id ← peekEventId positions bs
    f.idToAttr.get? id
  match index?.bind fun i => f.attrs[i]? with
  | some a => a.attr
  | none => f.firstAttr

/-- Decode the record of a frame. -/
def decodeFrame (f : RecordFile) : Frame → Except Corruption Record
  | .whole bs => Record.decode (f.attrFor bs) bs
  | .joined bs => do
    let h ← RecordHeader.decode bs
    let attr := if h.type < firstUserDefinedType then f.attrFor bs else f.firstAttr
    Record.decodeReassembled attr bs

/-- Learn the ids that a record announces. An index without an attr is passed
over. -/
def learnIds (f : RecordFile) : Record → RecordFile
  | .eventIds ids =>
    { f with idToAttr := ids.foldl (fun table (attr, id) =>
        if attr.toNat < f.attrs.length then table.insert id attr.toNat else table) f.idToAttr }
  | _ => f

/-- The records of the data section as stored. -/
def frames (f : RecordFile) : UpTo Frame := Frame.ofData (f.header.data.slice f.bytes)

/-- How a run over the records went: the file with the ids learned, the
visitor's state, and the fault that ended it early. -/
structure Visited (σ : Type) where
  file : RecordFile
  state : σ
  outcome : Except Corruption Unit

/-- Hand records to a visitor until it declines; the flag tells whether it
took all of them. -/
def offer (take : σ → Record → σ × Bool) (s : σ) : List Record → σ × Bool
  | [] => (s, true)
  | r :: rest =>
    match take s r with
    | (s, true) => offer take s rest
    | (s, false) => (s, false)

/-- Visit the records of frames in file order. -/
def visitInOrder (take : σ → Record → σ × Bool) (fault? : Option Corruption) (f : RecordFile)
    (s : σ) : List Frame → Visited σ
  | [] => ⟨f, s, match fault? with
    | some e => .error e
    | none => .ok ()⟩
  | frame :: rest =>
    match f.decodeFrame frame with
    | .error e => ⟨f, s, .error e⟩
    | .ok r =>
      let f := f.learnIds r
      match take s r with
      | (s, true) => visitInOrder take fault? f s rest
      | (s, false) => ⟨f, s, .ok ()⟩

/-- Visit the records of frames through a reordering buffer. -/
def visitSorted (take : σ → Record → σ × Bool) (fault? : Option Corruption) (f : RecordFile)
    (q : Reorder) (s : σ) : List Frame → Visited σ
  | [] =>
    match fault? with
    | some e => ⟨f, s, .error e⟩
    | none => ⟨f, (offer take s q.popAll.1).1, .ok ()⟩
  | frame :: rest =>
    match f.decodeFrame frame with
    | .error e => ⟨f, s, .error e⟩
    | .ok r =>
      let f := f.learnIds r
      let (ready, q) := (q.push r).popReady
      match offer take s ready with
      | (s, true) => visitSorted take fault? f q s rest
      | (s, false) => ⟨f, s, .ok ()⟩

/-- Hand every record to a visitor, which may decline to go on. -/
def visit (f : RecordFile) (sorted : Bool) (take : σ → Record → σ × Bool) (s : σ) : Visited σ :=
  let frames := f.frames
  if sorted then
    visitSorted take frames.fault? f (Reorder.standard f.hasTimestamp) s frames.values
  else visitInOrder take frames.fault? f s frames.values

def readAll (f : RecordFile) : Except Corruption (List Record) × RecordFile :=
  let v := f.visit false (fun rs r => (r :: rs, true)) ([] : List Record)
  (v.outcome.map fun _ => v.state.reverse, v.file)

end RecordFile
end Profiler
