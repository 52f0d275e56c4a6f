/-
# Feature payloads, whole and cut short

Each kind of feature payload has an encoder and a decoder of its own, in which
texts are stored in three ways: padded behind a length, ended by a NUL, and
padded inside a record. A value whose texts have no NUL and whose lengths and
counts are the words that they are stored as is read back
(`Feature.decode_encode_payload`).

A payload that says how much it holds is refused when its end is missing. One
that is a list up to the end of its section cannot tell a missing entry from
none: cut between two entries it is read as the entries before, and cut inside
one it is refused (`Feature.decode_cut_payload`).

What a decoder reads in one go is a step of the cursor, with the bytes that it
reads and the fact that it is local. The lists that end with their section are
listings, whose entries are read one by one.

Key definitions: `LengthText.Fits`, `CommandLineFeature.Fits`,
`BuildIdList.Fits`, `MetaInfo.Fits`, `EventDesc.Fits`, `FileEntry.Fits`.
Key theorems: `LengthText.reads_parse`, `EventDesc.reads_parse`,
`FileEntry.reads_parse`, `BuildIdList.listing`, `MetaInfo.listing`,
`FileEntry.listing`, `Feature.decode_encode_payload`,
`Feature.decode_cut_payload`.
-/
import Mathlib.Tactic.MkIffOfInductiveProp
import Profiler.File.Payload
import Profiler.Proofs.Cut
import Profiler.Proofs.File.MetaPairs
import Profiler.Proofs.File.Tables
import Profiler.Proofs.OrderedMap
import Profiler.Proofs.Record.RoundTrip

namespace Profiler

open Parse

theorem UInt32.toNat_ofNat_length {α : Type} {l : List α} (h : l.length < UInt32.size) :
    (UInt32.ofNat l.length).toNat = l.length := UInt32.toNat_ofNat_of_lt' h

/-! ### Texts behind their length -/

namespace LengthText

/-- The text has no NUL and its padded length is a 32-bit word. -/
@[mk_iff]
structure Fits (s : String) : Prop where
  noNul : '\x00' ∉ s.toList
  length : Bytes.paddedTextLength s 64 < UInt32.size

instance (s : String) : Decidable (Fits s) := decidable_of_iff' _ (fits_iff s)

theorem reads_parse {s : String} (h : Fits s) : Reads parse (encode s) s := by
  obtain ⟨raw, padding, hfield, hraw, -, hs⟩ :=
    Format.text_paddedText h.noNul (by decide : 0 < 64)
  have htext : Utf8.decode ((Bytes.paddedText s 64).takeWhile (· != 0)) = s := by
    rw [hfield, Bytes.takeWhile_append_nul hraw, ← hs]
  have hlen : (Bytes.paddedText s 64).length =
      (UInt32.ofNat (Bytes.paddedTextLength s 64)).toNat :=
    (Bytes.length_fixed _ _).trans (UInt32.toNat_ofNat_of_lt' h.length).symm
  have hread := (reads_take hlen).map
    (g := fun field : Bytes => Utf8.decode (field.takeWhile (· != 0)))
  rw [htext] at hread
  exact (reads_u32 _).bind hread

theorem isLocal_parse : Local parse :=
  follows_u32.isLocal.bind fun _ => (follows_take _).isLocal.bind fun _ => .built _

end LengthText

/-! ### The command line -/

namespace CommandLineFeature

/-- The number of arguments is a 32-bit word and each of them is stored. -/
@[mk_iff]
structure Fits (args : List String) : Prop where
  count : args.length < UInt32.size
  texts : ∀ s ∈ args, LengthText.Fits s

instance (args : List String) : Decidable (Fits args) := decidable_of_iff' _ (fits_iff args)

theorem reads_parse {args : List String} (h : Fits args) : Reads parse (encode args) args := by
  refine (reads_u32 _).bind ?_
  rw [UInt32.toNat_ofNat_length h.count]
  exact Reads.times fun s hs => LengthText.reads_parse (h.texts s hs)

theorem isLocal_parse : Local parse :=
  follows_u32.isLocal.bind fun _ => LengthText.isLocal_parse.times _

end CommandLineFeature

/-! ### Cpu counts -/

namespace CpuCounts

theorem reads_parse (n : CpuCounts) : Reads parse n.encode n :=
  (reads_u32 _).bind (reads_u32 _).map

theorem isLocal_parse : Local parse :=
  follows_u32.isLocal.bind fun _ => follows_u32.isLocal.bind fun _ => .built _

end CpuCounts

/-! ### Event descriptions -/

namespace EventDesc

/-- The number of events, the numbers of their ids and the lengths of their
names are 32-bit words. -/
@[mk_iff]
structure Fits (es : List EventDesc) : Prop where
  count : es.length < UInt32.size
  names : ∀ e ∈ es, LengthText.Fits e.name
  ids : ∀ e ∈ es, e.ids.length < UInt32.size

instance (es : List EventDesc) : Decidable (Fits es) := decidable_of_iff' _ (fits_iff es)

theorem reads_parseAttr (a : Attr) : Reads (parseAttr Attr.byteSize) a.encode a :=
  (reads_take a.length_encode).bind_built (by simp only [a.decode_encode])

theorem reads_parseEntry {e : EventDesc} (hname : LengthText.Fits e.name)
    (hids : e.ids.length < UInt32.size) :
    Reads (parseEntry Attr.byteSize) (encodeEntry e) e := by
  unfold encodeEntry
  simp only [List.append_assoc]
  refine (reads_parseAttr _).bind ?_
  refine (reads_u32 _).bind ?_
  refine (LengthText.reads_parse hname).bind ?_
  exact (reads_u64s (UInt32.toNat_ofNat_length hids).symm).map

theorem reads_parse {es : List EventDesc} (h : Fits es) : Reads parse (encode es) es := by
  unfold encode
  rw [List.append_assoc]
  refine (reads_u32 _).bind ?_
  refine (reads_u32 _).bind ?_
  rw [UInt32.toNat_ofNat_length h.count]
  exact Reads.times fun e he => reads_parseEntry (h.names e he) (h.ids e he)

theorem isLocal_parseEntry (attrSize : Nat) : Local (parseEntry attrSize) := by
  have hattr : Local (parseAttr attrSize) :=
    Local.nested Attr.decode (fun _ _ h => by simp only [h]) (fun _ _ h => by simp only [h])
      attrSize
  exact hattr.bind fun _ => follows_u32.isLocal.bind fun _ =>
    LengthText.isLocal_parse.bind fun _ => (follows_u64s _).isLocal.bind fun _ => .built _

theorem isLocal_parse : Local parse :=
  follows_u32.isLocal.bind fun _ => follows_u32.isLocal.bind fun _ =>
    (isLocal_parseEntry _).times _

end EventDesc

/-! ### Build ids -/

namespace BuildIdList

/-- The record is stored in one piece, and its name has no NUL. -/
@[mk_iff]
structure Fits (r : BuildIdRecord) : Prop where
  noNul : '\x00' ∉ r.filename.toList
  length : (Record.buildId r).encode.length ≤ maxRecordSize

instance (r : BuildIdRecord) : Decidable (Fits r) := decidable_of_iff' _ (fits_iff r)

/-- The buffer is read as these records, wherever it begins. -/
def Gives (bs : Bytes) (rs : List BuildIdRecord) : Prop :=
  ∀ position, decodeFrom position bs = .ok rs

/-- The buffer is refused, wherever it begins. -/
def Fails (bs : Bytes) : Prop := ∀ position, ∃ e, decodeFrom position bs = .error e

theorem decode_header {r : BuildIdRecord} {bs : Bytes}
    (h : (Record.buildId r).header.encode <+: bs) :
    RecordHeader.decode bs = .ok (Record.buildId r).header := by
  obtain ⟨body, rfl⟩ := h
  exact RecordHeader.decode_eq_ok_iff.mpr ⟨body, rfl⟩

theorem header_starts_encode (r : BuildIdRecord) :
    (Record.buildId r).header.encode <+: (Record.buildId r).encode := ⟨_, rfl⟩

theorem encode_pos (r : BuildIdRecord) : 0 < (Record.buildId r).encode.length := by
  rw [Record.length_encode, recordHeaderSize]
  omega

theorem decodeFrom_append {r : BuildIdRecord} (h : Fits r) (position : Nat) (rest : Bytes) :
    decodeFrom position ((Record.buildId r).encode ++ rest) =
      (decodeFrom (position + (Record.buildId r).encode.length) rest).map (r :: ·) := by
  have hpos := encode_pos r
  have hne : (Record.buildId r).encode ++ rest ≠ [] :=
    List.append_ne_nil_of_left_ne_nil (List.ne_nil_of_length_pos hpos) rest
  have hheader := decode_header ((header_starts_encode r).trans (List.prefix_append _ rest))
  have hsize := Record.header_size h.length
  have hinside : ¬ ((Record.buildId r).encode.length = 0 ∨
      ((Record.buildId r).encode ++ rest).length < (Record.buildId r).encode.length) := by
    rw [List.length_append]
    omega
  have hdecode : Record.decode Attr.empty (Record.buildId r).encode = .ok (.buildId r) :=
    Record.decode_encode ⟨h.noNul, trivial⟩ trivial h.length
  rw [decodeFrom, dif_neg hne, hheader]
  simp only [hsize, List.take_left', List.drop_left', hdecode]
  exact dif_neg hinside

/-- A record that was cut is refused, in its header or behind it. -/
theorem fails_cut {r : BuildIdRecord} (h : Fits r) {front : Bytes}
    (hfront : front <+: (Record.buildId r).encode) (hne : front ≠ [])
    (hcut : front ≠ (Record.buildId r).encode) : Fails front := by
  intro position
  have hsize := Record.header_size h.length
  have hshort : front.length < (Record.buildId r).encode.length :=
    Nat.lt_of_le_of_ne hfront.length_le fun hlen => hcut (hfront.eq_of_length hlen)
  rw [decodeFrom, dif_neg hne]
  cases hheader : RecordHeader.decode front with
  | error e => exact ⟨e, rfl⟩
  | ok header =>
    obtain ⟨body, hbody⟩ := RecordHeader.decode_eq_ok_iff.mp hheader
    have hlong : (Record.buildId r).header.encode <+: front :=
      List.prefix_of_prefix_length_le (header_starts_encode r) hfront (by simp [hbody])
    rw [decode_header hlong] at hheader
    have heq : (Record.buildId r).header = header := Except.ok.inj hheader
    exact ⟨_, dif_pos (.inr (by rwa [← heq, hsize]))⟩

theorem listing : Listing (fun r => (Record.buildId r).encode) Fits Gives Fails where
  nil := fun position => by rw [decodeFrom, dif_pos rfl]
  cons := fun hv hrest position => by rw [decodeFrom_append hv, hrest]; rfl
  fails_cons := fun hv hrest position => by
    obtain ⟨e, he⟩ := hrest (position + _)
    rw [decodeFrom_append hv, he]
    exact ⟨e, rfl⟩
  fails_cut := fun hv hfront hne hcut => fails_cut hv hfront hne hcut

end BuildIdList

/-! ### Meta information -/

namespace MetaInfo

/-- No key and no value has a NUL, and the entries are those of a map. -/
@[mk_iff]
structure Fits (m : MetaInfo) : Prop where
  ascending : m.Ascending
  noNul : ∀ e ∈ m.entries, '\x00' ∉ e.1.toList ∧ '\x00' ∉ e.2.toList

instance (m : MetaInfo) : Decidable (Fits m) :=
  have : Decidable m.Ascending := inferInstanceAs (Decidable (List.Pairwise _ _))
  decidable_of_iff' _ (fits_iff m)

/-- The bytes of one entry. -/
def encodeEntry (e : String × String) : Bytes := Utf8.encode e.1 ++ [0] ++ Utf8.encode e.2 ++ [0]

/-- The buffer is read as these entries, whatever was read before. -/
def Gives (bs : Bytes) (es : List (String × String)) : Prop :=
  ∀ m, decodeInto m bs = .ok (es.foldl (fun (m : MetaInfo) e => m.insert e.1 e.2) m)

/-- The buffer is refused, whatever was read before. -/
def Fails (bs : Bytes) : Prop := ∀ m, ∃ e, decodeInto m bs = .error e

theorem untilNul?_text {s : String} (h : '\x00' ∉ s.toList) (rest : Bytes) :
    Bytes.untilNul? (Utf8.encode s ++ 0 :: rest) = some (Utf8.encode s, rest) :=
  Bytes.untilNul?_eq_some_iff.mpr ⟨rfl, mt Utf8.zero_mem_encode_iff.mp h⟩

theorem decodeInto_append {e : String × String} (hkey : '\x00' ∉ e.1.toList)
    (hvalue : '\x00' ∉ e.2.toList) (m : MetaInfo) (rest : Bytes) :
    decodeInto m (encodeEntry e ++ rest) = decodeInto (m.insert e.1 e.2) rest := by
  have hbs : encodeEntry e ++ rest =
      Utf8.encode e.1 ++ 0 :: (Utf8.encode e.2 ++ 0 :: rest) := by simp [encodeEntry]
  have hkey' := mt Utf8.zero_mem_encode_iff.mp hkey
  have hvalue' := mt Utf8.zero_mem_encode_iff.mp hvalue
  rw [hbs, decodeInto_pair m hkey' hvalue', addPair, Utf8.decode_encode, Utf8.decode_encode]

/-- An entry that was cut is refused: one of its two NULs is missing. -/
theorem fails_cut {e : String × String} (hkey : '\x00' ∉ e.1.toList) (hvalue : '\x00' ∉ e.2.toList)
    {front : Bytes} (hfront : front <+: encodeEntry e) (hne : front ≠ [])
    (hcut : front ≠ encodeEntry e) : Fails front := by
  intro m
  obtain ⟨more, hmore⟩ := hfront
  have hbs : encodeEntry e = Utf8.encode e.1 ++ 0 :: (Utf8.encode e.2 ++ 0 :: []) := by
    simp [encodeEntry]
  rw [decodeInto, dif_neg hne]
  split
  · exact ⟨_, rfl⟩
  next key tail hfirst =>
  split
  · exact ⟨_, rfl⟩
  next value tail' hsecond =>
  -- with both NULs in place the texts are those of the entry, and nothing is missing
  have hwhole := Bytes.untilNul?_append hfirst more
  rw [hmore, hbs, untilNul?_text hkey] at hwhole
  simp only [Option.some.injEq, Prod.mk.injEq] at hwhole
  have hrest := Bytes.untilNul?_append hsecond more
  rw [← hwhole.2, untilNul?_text hvalue] at hrest
  simp only [Option.some.injEq, Prod.mk.injEq, List.nil_eq, List.append_eq_nil_iff] at hrest
  rw [hrest.2.2, List.append_nil] at hmore
  exact absurd hmore hcut

theorem listing : Listing encodeEntry
    (fun e => '\x00' ∉ e.1.toList ∧ '\x00' ∉ e.2.toList) Gives Fails where
  nil := fun m => by rw [decodeInto, dif_pos rfl]; rfl
  cons := fun hv hrest m => by rw [decodeInto_append hv.1 hv.2, hrest, List.foldl_cons]
  fails_cons := fun hv hrest m => by
    rw [decodeInto_append hv.1 hv.2]
    exact hrest _
  fails_cut := fun hv hfront hne hcut => fails_cut hv.1 hv.2 hfront hne hcut

end MetaInfo

/-! ### Files with their symbols -/

theorem FileSymbol.reads_parse {s : FileSymbol} (h : '\x00' ∉ s.name.toList) :
    Reads parse s.encode s := by
  unfold encode
  rw [List.append_assoc]
  refine (reads_u64 _).bind ?_
  refine (reads_u32 _).bind ?_
  exact ((follows_paddedText (by decide)).reads (Format.text_paddedText h (by decide))).map

theorem DsoType.ofCode?_code (t : DsoType) : ofCode? t.code = some t := by cases t <;> decide

namespace FileEntry

/-- The path and the names of the symbols have no NUL, the counts and the
length are 32-bit words, and of the fields that belong to a type only that of
the file's own type is set. -/
@[mk_iff]
structure Fits (f : FileEntry) : Prop where
  path : '\x00' ∉ f.path.toList
  names : ∀ s ∈ f.symbols, '\x00' ∉ s.name.toList
  symbols : f.symbols.length < UInt32.size
  offsets : f.dexFileOffsets.length < UInt32.size
  length : f.body.length < UInt32.size
  dexFile : f.dsoType ≠ .dexFile → f.dexFileOffsets = []
  elfFile : f.dsoType ≠ .elfFile → f.fileOffsetOfMinVaddr = 0
  kernelModule : f.dsoType ≠ .kernelModule → f.memoryOffsetOfMinVaddr = 0

instance (f : FileEntry) : Decidable (Fits f) := decidable_of_iff' _ (fits_iff f)

theorem reads_parseType (t : DsoType) : Reads parseType (Bytes.u32 t.code) t :=
  (reads_u32 _).bind_built (by simp only [DsoType.ofCode?_code])

theorem reads_parseOffset {f : FileEntry} (h : Fits f) :
    Reads (parseOffset { path := f.path, dsoType := f.dsoType, minVaddr := f.minVaddr
                         symbols := f.symbols }) f.encodeOffset f := by
  obtain ⟨-, -, -, hcount, -, hdex, helf, hmodule⟩ := h
  obtain ⟨path, dsoType, minVaddr, symbols, dexFileOffsets, fileOffset, memoryOffset⟩ := f
  cases dsoType with
  | dexFile =>
    obtain rfl : fileOffset = 0 := helf nofun
    obtain rfl : memoryOffset = 0 := hmodule nofun
    exact (reads_u32 _).bind
      ((reads_u64s (UInt32.toNat_ofNat_length hcount).symm).bind_built rfl)
  | elfFile =>
    obtain rfl : dexFileOffsets = [] := hdex nofun
    obtain rfl : memoryOffset = 0 := hmodule nofun
    exact (reads_u64 fileOffset).bind_built rfl
  | kernelModule =>
    obtain rfl : dexFileOffsets = [] := hdex nofun
    obtain rfl : fileOffset = 0 := helf nofun
    exact (reads_u64 memoryOffset).bind_built rfl
  | kernel | symbolMapFile | unknownFile =>
    obtain rfl : dexFileOffsets = [] := hdex nofun
    obtain rfl : fileOffset = 0 := helf nofun
    obtain rfl : memoryOffset = 0 := hmodule nofun
    exact Reads.built _

theorem reads_parseBody {f : FileEntry} (h : Fits f) : Reads parseBody f.body f := by
  unfold body
  simp only [List.append_assoc]
  refine ((follows_paddedText (by decide)).reads (Format.text_paddedText h.path (by decide))).bind ?_
  refine (reads_parseType _).bind ?_
  refine (reads_u64 _).bind ?_
  refine (reads_u32 _).bind ?_
  rw [UInt32.toNat_ofNat_length h.symbols]
  exact (Reads.times fun s hs => FileSymbol.reads_parse (h.names s hs)).bind (reads_parseOffset h)

theorem decodeBody_body {f : FileEntry} (h : Fits f) : decodeBody f.body = .ok f := by
  have hrun : parseBody.run (Cursor.start f.body) = _ :=
    List.append_nil f.body ▸ reads_parseBody h 0 []
  rw [decodeBody, hrun]
  rfl

theorem reads_parse {f : FileEntry} (h : Fits f) : Reads parse f.encode f := by
  refine (reads_u32 _).bind ?_
  exact (reads_take (UInt32.toNat_ofNat_length h.length).symm).bind_built
    (by simp only [decodeBody_body h])

theorem isLocal_parse : Local parse :=
  follows_u32.isLocal.bind fun _ =>
    Local.nested decodeBody (fun _ _ h => by simp only [h]) (fun _ _ h => by simp only [h]) _

/-- The buffer is read as these entries, wherever it begins, in as many steps
as it has bytes or more. -/
def Gives (bs : Bytes) (fs : List FileEntry) : Prop := ∀ steps position, bs.length ≤ steps →
  ∃ c, parseAll steps ⟨position, bs⟩ = .ok (fs, c)

/-- The buffer is refused, wherever it begins. -/
def Fails (bs : Bytes) : Prop := ∀ steps position, bs.length ≤ steps →
  ∃ e, parseAll steps ⟨position, bs⟩ = .error e

theorem parseAll_succ {bs : Bytes} (h : bs ≠ []) (steps position : Nat) :
    parseAll (steps + 1) ⟨position, bs⟩ =
      (do let f ← parse; let fs ← parseAll steps; return f :: fs : Parse _) ⟨position, bs⟩ := by
  have hempty : bs.isEmpty = false := by simpa using h
  have hend : parseAll (steps + 1) ⟨position, bs⟩ = (if bs.isEmpty then return []
      else do let f ← parse; let fs ← parseAll steps; return f :: fs : Parse _) ⟨position, bs⟩ := rfl
  rw [hend, hempty]
  rfl

theorem length_encode_pos (f : FileEntry) : 0 < f.encode.length := by
  rw [encode, List.length_append, Bytes.length_u32]
  omega

theorem parseAll_append {f : FileEntry} (h : Fits f) {rest : Bytes} {steps : Nat} (position : Nat)
    (hsteps : (f.encode ++ rest).length ≤ steps) :
    ∃ steps' position', rest.length ≤ steps' ∧
      parseAll steps ⟨position, f.encode ++ rest⟩ =
        ((f :: ·) <$> parseAll steps') ⟨position', rest⟩ := by
  have hpos := f.length_encode_pos
  rw [List.length_append] at hsteps
  obtain ⟨n, rfl⟩ : ∃ n, steps = n + 1 := ⟨steps - 1, by omega⟩
  have hne : f.encode ++ rest ≠ [] :=
    List.append_ne_nil_of_left_ne_nil (List.ne_nil_of_length_pos hpos) rest
  refine ⟨n, position + f.encode.length, by omega, ?_⟩
  rw [parseAll_succ hne]
  have hrun := reads_parse h position rest
  show (parse ⟨position, f.encode ++ rest⟩).bind _ = _
  rw [hrun]
  rfl

theorem listing : Listing encode Fits Gives Fails where
  nil := fun steps position _ => by cases steps <;> exact ⟨_, rfl⟩
  cons := fun hf hrest steps position hsteps => by
    obtain ⟨steps', position', hsteps', hall⟩ := parseAll_append hf position hsteps
    obtain ⟨c, hc⟩ := hrest steps' position' hsteps'
    exact ⟨c, hall.trans (map_eq_ok.mpr ⟨_, hc, rfl⟩)⟩
  fails_cons := fun hf hrest steps position hsteps => by
    obtain ⟨steps', position', hsteps', hall⟩ := parseAll_append hf position hsteps
    obtain ⟨e, he⟩ := hrest steps' position' hsteps'
    exact ⟨e, hall.trans (map_eq_error.mpr he)⟩
  fails_cut := fun hf hfront hne hcut steps position hsteps => by
    obtain ⟨n, rfl⟩ : ∃ n, steps = n + 1 :=
      ⟨steps - 1, by have := List.length_pos_iff.mpr hne; omega⟩
    obtain ⟨e, he⟩ := isLocal_parse.fails (reads_parse hf) hfront hcut position
    exact ⟨e, by rw [parseAll_succ hne]; exact bind_eq_error.mpr (.inl he)⟩

end FileEntry

/-! ### Every payload -/

theorem BuildIdList.decode_of_gives {bs : Bytes} {rs : List BuildIdRecord} (h : Gives bs rs) :
    decode bs = .ok rs := h 0

theorem MetaInfo.decode_of_gives {bs : Bytes} {es : List (String × String)} (h : Gives bs es)
    (hes : (⟨es⟩ : MetaInfo).Ascending) : decode bs = .ok ⟨es⟩ :=
  (h ⟨[]⟩).trans (congrArg Except.ok (OrderedMap.ofList_of_ascending hes))

theorem FileEntry.decodeList_of_gives {bs : Bytes} {fs : List FileEntry} (h : Gives bs fs) :
    decodeList bs = .ok fs := by
  obtain ⟨c, hc⟩ := h bs.length 0 Nat.le.refl
  have hrun : (parseAll bs.length).run (Cursor.start bs) = _ := hc
  rw [decodeList, Parse.value, hrun]
  rfl

/-- **Every feature payload is read back.** Texts have no NUL, lengths and
counts are the words that they are stored as, build ids are records that need
not be split, and a file has the field of its own type only. -/
theorem Feature.decode_encode_payload :
    (∀ s, LengthText.Fits s → LengthText.decode (LengthText.encode s) = .ok s) ∧
      (∀ args, CommandLineFeature.Fits args →
        CommandLineFeature.decode (CommandLineFeature.encode args) = .ok args) ∧
      (∀ rs, (∀ r ∈ rs, BuildIdList.Fits r) →
        BuildIdList.decode (BuildIdList.encode rs) = .ok rs) ∧
      (∀ m, MetaInfo.Fits m → MetaInfo.decode (MetaInfo.encode m) = .ok m) ∧
      (∀ n : CpuCounts, CpuCounts.decode n.encode = .ok n) ∧
      (∀ es, EventDesc.Fits es → EventDesc.decode (EventDesc.encode es) = .ok es) ∧
      ∀ fs, (∀ f ∈ fs, FileEntry.Fits f) →
        FileEntry.decodeList (FileEntry.encodeList fs) = .ok fs := by
  refine ⟨fun s h => ?_, fun args h => ?_, fun rs h => ?_, fun m h => ?_, fun n => ?_,
    fun es h => ?_, fun fs h => ?_⟩
  · exact (LengthText.reads_parse h).value
  · exact (CommandLineFeature.reads_parse h).value
  · exact BuildIdList.decode_of_gives (BuildIdList.listing.gives h)
  · exact MetaInfo.decode_of_gives (MetaInfo.listing.gives h.noNul) h.ascending
  · exact n.reads_parse.value
  · exact (EventDesc.reads_parse h).value
  · exact FileEntry.decodeList_of_gives (FileEntry.listing.gives h)

/-- One payload of each kind: an empty argument, a build id without a name, an
empty key, and a file of each type that has a field of its own. -/
theorem Feature.decode_encode_payload_values :
    let args : List String := ["record", ""]
    let ids : List BuildIdRecord := [{ filename := "/a" }, {}]
    let info : MetaInfo := ⟨[("", "x"), ("k", "")]⟩
    let events : List EventDesc := [{ name := "cpu-cycles", ids := [7] }, {}]
    let files : List FileEntry := [
      { path := "/a", dsoType := .dexFile, dexFileOffsets := [64] },
      { path := "/b", dsoType := .elfFile, fileOffsetOfMinVaddr := 4096 },
      { path := "/c", dsoType := .kernelModule, symbols := [{ name := "f" }],
        memoryOffsetOfMinVaddr := 64 }]
    LengthText.decode (LengthText.encode "é") = .ok "é" ∧
      CommandLineFeature.decode (CommandLineFeature.encode args) = .ok args ∧
      BuildIdList.decode (BuildIdList.encode ids) = .ok ids ∧
      MetaInfo.decode (MetaInfo.encode info) = .ok info ∧
      CpuCounts.decode { available := 8, online := 7 : CpuCounts }.encode =
        .ok { available := 8, online := 7 } ∧
      EventDesc.decode (EventDesc.encode events) = .ok events ∧
      FileEntry.decodeList (FileEntry.encodeList files) = .ok files := by
  intro args ids info events files
  obtain ⟨htext, hargs, hids, hinfo, hcpus, hevents, hfiles⟩ := Feature.decode_encode_payload
  exact ⟨htext _ (by decide), hargs _ (by decide), hids _ (by decide), hinfo _ (by decide),
    hcpus _, hevents _ (by decide), hfiles _ (by decide)⟩

/-! ### Payloads that were cut short -/

section Cut

variable {front : Bytes}

theorem FileEntry.decodeList_of_fails {bs : Bytes} (h : Fails bs) :
    ∃ e, decodeList bs = .error e := by
  obtain ⟨e, he⟩ := h bs.length 0 Nat.le.refl
  have hrun : (parseAll bs.length).run (Cursor.start bs) = _ := he
  rw [decodeList, Parse.value, hrun]
  exact ⟨e, rfl⟩

theorem BuildIdList.decode_eq_ok_iff_of_prefix {rs ws : List BuildIdRecord}
    (h : ∀ r ∈ rs, Fits r) (hfront : front <+: encode rs) :
    decode front = .ok ws ↔ ws <+: rs ∧ front = encode ws :=
  listing.decode_eq_ok_iff h id id (fun _ hgives => ⟨_, rfl, decode_of_gives hgives⟩)
    (fun hfails => hfails 0) hfront

theorem FileEntry.decodeList_eq_ok_iff_of_prefix {fs ws : List FileEntry} (h : ∀ f ∈ fs, Fits f)
    (hfront : front <+: encodeList fs) :
    decodeList front = .ok ws ↔ ws <+: fs ∧ front = encodeList ws :=
  listing.decode_eq_ok_iff h id id (fun _ hgives => ⟨_, rfl, decodeList_of_gives hgives⟩)
    decodeList_of_fails hfront

theorem MetaInfo.decode_eq_ok_iff_of_prefix {m w : MetaInfo} (h : Fits m)
    (hfront : front <+: encode m) :
    decode front = .ok w ↔ w.entries <+: m.entries ∧ front = encode w := by
  have hascending : ∀ {es}, es <+: m.entries → (⟨es⟩ : MetaInfo).Ascending := fun hes =>
    h.ascending.sublist (hes.sublist.map Prod.fst)
  exact listing.decode_eq_ok_iff h.noNul OrderedMap.entries (fun heq => congrArg OrderedMap.mk heq)
    (fun hes hgives => ⟨⟨_⟩, rfl, decode_of_gives hgives (hascending hes)⟩)
    (fun hfails => hfails ⟨[]⟩) hfront

/-- **A payload that was cut is refused, or is a list that was cut between two
entries.** -/
theorem Feature.decode_cut_payload :
    (∀ s, LengthText.Fits s → ∀ front, front <+: LengthText.encode s →
        front ≠ LengthText.encode s → ∃ e, LengthText.decode front = .error e) ∧
      (∀ args, CommandLineFeature.Fits args → ∀ front, front <+: CommandLineFeature.encode args →
        front ≠ CommandLineFeature.encode args →
          ∃ e, CommandLineFeature.decode front = .error e) ∧
      (∀ n : CpuCounts, ∀ front, front <+: n.encode → front ≠ n.encode →
        ∃ e, CpuCounts.decode front = .error e) ∧
      (∀ es, EventDesc.Fits es → ∀ front, front <+: EventDesc.encode es →
        front ≠ EventDesc.encode es → ∃ e, EventDesc.decode front = .error e) ∧
      (∀ rs, (∀ r ∈ rs, BuildIdList.Fits r) → ∀ front, front <+: BuildIdList.encode rs →
        ∀ ws, BuildIdList.decode front = .ok ws ↔ ws <+: rs ∧ front = BuildIdList.encode ws) ∧
      (∀ fs, (∀ f ∈ fs, FileEntry.Fits f) → ∀ front, front <+: FileEntry.encodeList fs →
        ∀ ws, FileEntry.decodeList front = .ok ws ↔ ws <+: fs ∧ front = FileEntry.encodeList ws) ∧
      ∀ m, MetaInfo.Fits m → ∀ front, front <+: MetaInfo.encode m →
        ∀ w, MetaInfo.decode front = .ok w ↔ w.entries <+: m.entries ∧ front = MetaInfo.encode w := by
  refine ⟨fun s h _ hfront hne => ?_, fun args h _ hfront hne => ?_, fun n _ hfront hne => ?_,
    fun es h _ hfront hne => ?_, fun rs h _ hfront _ => ?_, fun fs h _ hfront _ => ?_,
    fun m h _ hfront _ => ?_⟩
  · exact LengthText.isLocal_parse.value_fails (LengthText.reads_parse h) hfront hne
  · exact CommandLineFeature.isLocal_parse.value_fails (CommandLineFeature.reads_parse h) hfront hne
  · exact CpuCounts.isLocal_parse.value_fails n.reads_parse hfront hne
  · exact EventDesc.isLocal_parse.value_fails (EventDesc.reads_parse h) hfront hne
  · exact BuildIdList.decode_eq_ok_iff_of_prefix h hfront
  · exact FileEntry.decodeList_eq_ok_iff_of_prefix h hfront
  · exact MetaInfo.decode_eq_ok_iff_of_prefix h hfront

/-- A command line without its last byte, and lists without their last entry. -/
theorem Feature.decode_cut_payload_values :
    let args : List String := ["record", ""]
    let id : BuildIdRecord := { filename := "/a" }
    let info : MetaInfo := ⟨[("", "x"), ("k", "")]⟩
    let file : FileEntry := { path := "/a", dsoType := .dexFile, dexFileOffsets := [64] }
    (∃ e, CommandLineFeature.decode (CommandLineFeature.encode args).dropLast = .error e) ∧
      BuildIdList.decode (BuildIdList.encode [id]) = .ok [id] ∧
      BuildIdList.encode [id] <+: BuildIdList.encode [id, {}] ∧
      MetaInfo.decode [0, 120, 0] = .ok ⟨[("", "x")]⟩ ∧ [0, 120, 0] <+: MetaInfo.encode info ∧
      FileEntry.decodeList (FileEntry.encodeList [file]) = .ok [file] ∧
      FileEntry.encodeList [file] <+: FileEntry.encodeList [file, {}] := by
  intro args id info file
  obtain ⟨-, hargs, -, -, hids, hfiles, hinfo⟩ := Feature.decode_cut_payload
  have hid : BuildIdList.encode [id] <+: BuildIdList.encode [id, {}] := by decide
  have hentry : [0, 120, 0] <+: MetaInfo.encode info := by decide
  have hfile : FileEntry.encodeList [file] <+: FileEntry.encodeList [file, {}] := by decide
  refine ⟨hargs args (by decide) _ (List.dropLast_prefix _) (by decide),
    (hids [id, {}] (by decide) _ hid _).mpr ⟨by decide, rfl⟩, hid,
    (hinfo info (by decide) _ hentry _).mpr ⟨by decide, by decide⟩, hentry,
    (hfiles [file, {}] (by decide) _ hfile _).mpr ⟨by decide, rfl⟩, hfile⟩

end Cut

end Profiler
