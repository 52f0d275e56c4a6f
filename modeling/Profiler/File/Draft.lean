/-
# Writing a record file

A `FileDraft` holds what has been written so far: the attrs with their ids,
the data after them, and the features, of which a later payload replaces an
earlier one. Where the sections are is known only at the end, so the header is
a blank until the draft is closed.

Key definitions: `FeatureValue`, `FileDraft`, `FileDraft.writeAttrs`,
`FileDraft.writeData`, `FileDraft.writeFeature`, `FileDraft.writeValue`,
`FileDraft.close`, `FileDraft.unfinished`.
-/
import Profiler.File.Payload

namespace Profiler

/-- What may be stored as a feature, before it is made into a payload. A text
may be stored under any number. -/
inductive FeatureValue where
  | text (feature : Feature) (s : String)
  | hostname (s : String)
  | osRelease (s : String)
  | arch (s : String)
  | commandLine (args : List String)
  | buildIds (rs : List BuildIdRecord)
  | cpuCounts (n : CpuCounts)
  | eventDescs (es : List EventDesc)
  | branchStack
  | metaInfo (m : MetaInfo)
  | files (fs : List FileEntry)
  deriving Repr

namespace FeatureValue

def feature : FeatureValue → Feature
  | text feature _ => feature
  | hostname _ => Feature.hostname
  | osRelease _ => Feature.osRelease
  | arch _ => Feature.arch
  | commandLine _ => Feature.cmdline
  | buildIds _ => Feature.buildId
  | cpuCounts _ => Feature.nrCpus
  | eventDescs _ => Feature.eventDesc
  | branchStack => Feature.branchStack
  | metaInfo _ => Feature.metaInfo
  | files _ => Feature.file

def payload : FeatureValue → Bytes
  | text _ s => LengthText.encode s
  | hostname s => LengthText.encode s
  | osRelease s => LengthText.encode s
  | arch s => LengthText.encode s
  | commandLine args => CommandLineFeature.encode args
  | buildIds rs => BuildIdList.encode rs
  | cpuCounts n => n.encode
  | eventDescs es => EventDesc.encode es
  | branchStack => []
  | metaInfo m => MetaInfo.encode m
  | files fs => FileEntry.encodeList fs

end FeatureValue

/-- A record file that is being written. -/
structure FileDraft where
  /-- The attrs, once they have been written. -/
  attrs? : Option (List AttrWithIds) := none
  data : Bytes := []
  features : OrderedMap Feature Bytes := ⟨[]⟩
  deriving Repr

namespace FileDraft

def idLists (attrs : List AttrWithIds) : Bytes := attrs.flatMap fun a => Bytes.u64s a.ids

/-- The entries of the attr table, whose id lists begin at `offset`. -/
def attrEntries (offset : Nat) : List AttrWithIds → List FileAttr
  | [] => []
  | a :: rest =>
    let size := 8 * a.ids.length
    ⟨a.attr, ⟨UInt64.ofNat offset, UInt64.ofNat size⟩⟩ :: attrEntries (offset + size) rest

/-- The place of the attr table, after the header and the id lists. -/
def attrTable (attrs : List AttrWithIds) : Section :=
  ⟨UInt64.ofNat (fileHeaderSize + (idLists attrs).length),
    UInt64.ofNat (FileAttr.byteSize * attrs.length)⟩

def attrBytes (attrs : List AttrWithIds) : Bytes :=
  idLists attrs ++ (attrEntries fileHeaderSize attrs).flatMap FileAttr.encode

/-- The attrs are written once, and there is at least one. -/
def writeAttrs (d : FileDraft) (attrs : List AttrWithIds) : Except Misuse FileDraft :=
  if d.attrs?.isSome then .error .attrsWritten
  else if attrs.isEmpty then .error .attrsEmpty
  else .ok { d with attrs? := some attrs }

/-- Data follows the attrs. -/
def writeData (d : FileDraft) (bs : Bytes) : Except Misuse FileDraft :=
  if d.attrs?.isSome then .ok { d with data := d.data ++ bs } else .error .dataBeforeAttrs

/-- A record is data, split if it is too long. -/
def writeRecord (d : FileDraft) (r : Record) : Except Misuse FileDraft :=
  r.splitForFile.foldlM writeData d

def writeFeature (d : FileDraft) (f : Feature) (payload : Bytes) : Except Misuse FileDraft :=
  if f < Feature.bound then .ok { d with features := d.features.insert f payload }
  else .error (.featureId f)

def writeValue (d : FileDraft) (v : FeatureValue) : Except Misuse FileDraft :=
  d.writeFeature v.feature v.payload

/-- The places of payloads that begin at `offset`. -/
def featurePlaces (offset : Nat) : List Bytes → List Section
  | [] => []
  | p :: rest =>
    ⟨UInt64.ofNat offset, UInt64.ofNat p.length⟩ :: featurePlaces (offset + p.length) rest

def header (d : FileDraft) (attrs : List AttrWithIds) : FileHeader :=
  let table := attrTable attrs
  d.features.keys.foldl FileHeader.setFeature
    { attrs := table, data := ⟨table.offset + table.size, UInt64.ofNat d.data.length⟩ }

/-- What is in the file while the header is still a blank. -/
def unfinished (d : FileDraft) : Bytes :=
  List.replicate fileHeaderSize 0 ++ attrBytes (d.attrs?.getD []) ++ d.data

/-- The finished file: header, id lists, attr table, data, places of the
features, features. -/
def close (d : FileDraft) : Except Misuse Bytes :=
  match d.attrs? with
  | none => .error .closedWithoutAttrs
  | some attrs =>
    let h := d.header attrs
    let first := h.featureTableOffset.toNat + Section.byteSize * d.features.entries.length
    let payloads := d.features.values
    .ok (h.encode ++ attrBytes attrs ++ d.data ++
      (featurePlaces first payloads).flatMap Section.encode ++ payloads.flatten)

end FileDraft
end Profiler
