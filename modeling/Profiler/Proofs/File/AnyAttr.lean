/-
# What any attr decodes alike

Four fields of an attr decide what bytes are decoded to, faults included: attrs
that agree on them decode all bytes alike. Records that the kernel never makes,
and those of a kind that is not understood, have no part that an attr shapes, so
for them any attr does. Where a reader has no attr to go by and takes some, it
is for such a record: that of a run of pieces, or one in a list of build ids.

A list of build ids is cut at the lengths in the headers before its pieces are
decoded (`BuildIdList.decode_eq_decodeWith`). Whatever attr they are decoded by,
the list is accepted for the same build ids, and if all pieces are of such
records it is also refused for the same reason.

Key definitions: `RecordHeader.AttrFree`, `AttrFreeBytes`,
`BuildIdList.cutFrom`, `BuildIdList.decodeWith`.
Key theorems: `Record.decode_eq_of_attrFree`, `Record.attrFreeBytes_of_decode`,
`BuildIdList.decode_eq_decodeWith`, `BuildIdList.decodeWith_eq_ok_iff`,
`Record.decode_indifferent`.
-/
import Profiler.Proofs.File.ReadAll
import Profiler.Proofs.Record.Shape

namespace Profiler

/-- A header of a record that is not understood or that the kernel did not
make. -/
def RecordHeader.AttrFree (h : RecordHeader) : Prop :=
  firstUserDefinedType ≤ h.type ∨ RecordKind.ofCode? h.type = none

/-- Bytes whose header, if they have one, is of such a record. -/
def AttrFreeBytes (bs : Bytes) : Prop := ∀ h, RecordHeader.decode bs = .ok h → h.AttrFree

variable {a b : Attr} {bs : Bytes} {r : Record}

namespace Record

theorem parseBody_eq_of_attrFree (a b : Attr) {h : RecordHeader} (hfree : h.AttrFree) :
    parseBody a h = parseBody b h := by
  unfold parseBody
  cases hkind : RecordKind.ofCode? h.type with
  | none => rfl
  | some k =>
    have huser : firstUserDefinedType ≤ k.code := by
      rw [← RecordKind.ofCode?_eq_some_iff.mp hkind]
      exact hfree.resolve_right (by simp [hkind])
    cases k with
    | tracingData | buildId | kernelSymbol | dso | symbol | split | splitEnd | eventId => rfl
    | _ => exact absurd huser (by decide)

/-- **Any attr decodes a record that the kernel does not make.** -/
theorem decode_eq_of_attrFree (a b : Attr) (h : AttrFreeBytes bs) :
    decode a bs = decode b bs ∧ decodeReassembled a bs = decodeReassembled b bs :=
  decode_eq_of_parseBody_eq fun header hheader => parseBody_eq_of_attrFree a b (h header hheader)

theorem attrFreeBytes_of_decode (h : decode a bs = .ok r) (hfree : r.AttrFree) :
    AttrFreeBytes bs := by
  obtain ⟨header, body, hbs, -, hlayout, htype⟩ := decode_eq_ok_iff.mp h
  intro header' hheader'
  obtain rfl : header = header' := Except.ok.inj
    ((RecordHeader.decode_eq_ok_iff.mpr ⟨body, hbs⟩).symm.trans hheader')
  rw [RecordHeader.AttrFree, ← htype, hlayout.ofCode?_type]
  exact hfree.symm

end Record

/-! ### Reading a file -/

/-- Whatever a file knows of its attrs, a frame of such a record is decoded as
by any other attr. -/
theorem RecordFile.decodeFrame_of_attrFree (f : RecordFile) (a : Attr) (h : AttrFreeBytes bs) :
    f.decodeFrame (.whole bs) = Record.decode a bs ∧
      f.decodeFrame (.joined bs) = Record.decodeReassembled a bs := by
  refine ⟨(Record.decode_eq_of_attrFree _ a h).1, ?_⟩
  cases hheader : RecordHeader.decode bs with
  | error e =>
    have hframe : f.decodeFrame (.joined bs) = .error e := bind_eq_error_iff.mpr (.inl hheader)
    have hdecode : Record.decodeReassembled a bs = .error e :=
      bind_eq_error_iff.mpr (.inl hheader)
    rw [hframe, hdecode]
  | ok header =>
    rw [f.decodeFrame_joined hheader]
    exact (Record.decode_eq_of_attrFree _ a h).2

/-! ### Lists of build ids -/

namespace BuildIdList

/-- The pieces of a payload from a position on, cut at the lengths in their
headers, and the fault of a piece that does not fit. -/
def cutFrom (position : Nat) (bs : Bytes) : UpTo Bytes :=
  if _h : bs = [] then ⟨[], none⟩
  else
    match RecordHeader.decode bs with
    | .error e => ⟨[], some e⟩
    | .ok h =>
      if _hsize : h.size.toNat = 0 ∨ bs.length < h.size.toNat then
        ⟨[], some (.buildIdOutside position)⟩
      else
        (cutFrom (position + h.size.toNat) (bs.drop h.size.toNat)).cons (bs.take h.size.toNat)
termination_by bs.length
decreasing_by
  simp only [List.length_drop]
  omega

def decodePiece (a : Attr) (piece : Bytes) : Except Corruption BuildIdRecord :=
  match Record.decode a piece with
  | .error e => .error e
  | .ok (.buildId r) => .ok r
  | .ok r => .error (.buildIdType r.typeName)

/-- The build ids of pieces, unless there is a fault behind them. -/
def decodePieces (a : Attr) (cut : UpTo Bytes) : Except Corruption (List BuildIdRecord) := do
  let rs ← cut.values.mapM (decodePiece a)
  match cut.fault? with
  | none => return rs
  | some e => throw e

/-- The build ids of a payload whose pieces this attr decodes. -/
def decodeWith (a : Attr) (bs : Bytes) : Except Corruption (List BuildIdRecord) :=
  decodePieces a (cutFrom 0 bs)

theorem decodePieces_cons (a : Attr) (piece : Bytes) (cut : UpTo Bytes) :
    decodePieces a (cut.cons piece) =
      (decodePiece a piece).bind fun r => (decodePieces a cut).map (r :: ·) := by
  unfold decodePieces UpTo.cons
  rw [List.mapM_cons]
  cases decodePiece a piece with
  | error e => rfl
  | ok r =>
    cases cut.values.mapM (decodePiece a) with
    | error e => rfl
    | ok rs => cases cut.fault? <;> rfl

/-- Decoding a list is cutting it and decoding the pieces. -/
theorem decodeFrom_eq_decodePieces (position : Nat) (bs : Bytes) :
    decodeFrom position bs = decodePieces Attr.empty (cutFrom position bs) := by
  fun_induction cutFrom position bs with
  | case1 position => rw [decodeFrom, dif_pos rfl]; rfl
  | case2 position bs h e he => rw [decodeFrom, dif_neg h, he]; rfl
  | case3 position bs h header hheader hsize =>
    rw [decodeFrom, dif_neg h, hheader]
    exact dif_pos hsize
  | case4 position bs h header hheader hsize ih =>
    rw [decodeFrom, dif_neg h, hheader, decodePieces_cons, ← ih, decodePiece]
    simp only [dif_neg hsize]
    cases Record.decode Attr.empty (bs.take header.size.toNat) with
    | error e => rfl
    | ok r => cases r <;> rfl

theorem decode_eq_decodeWith (bs : Bytes) : decode bs = decodeWith Attr.empty bs :=
  decodeFrom_eq_decodePieces 0 bs

theorem decodePiece_eq_ok_iff {piece : Bytes} {r : BuildIdRecord} :
    decodePiece a piece = .ok r ↔ Record.decode a piece = .ok (.buildId r) := by
  unfold decodePiece
  split
  · next h => simp [h]
  · next h => simp [h]
  · next other hother h =>
    rw [h]
    simpa using fun heq => hother r heq

theorem mapM_decodePiece_ok (b : Attr) {pieces : List Bytes} {rs : List BuildIdRecord}
    (h : pieces.mapM (decodePiece a) = .ok rs) : pieces.mapM (decodePiece b) = .ok rs := by
  have hpiece : ∀ {piece r}, decodePiece a piece = .ok r → decodePiece b piece = .ok r := by
    intro piece r hr
    rw [decodePiece_eq_ok_iff] at hr ⊢
    have hfree : (Record.buildId r).AttrFree := .inr (by rw [Record.type_eq_code rfl]; decide)
    rw [← (Record.decode_eq_of_attrFree a b (Record.attrFreeBytes_of_decode hr hfree)).1, hr]
  induction pieces generalizing rs with
  | nil => rwa [List.mapM_nil] at h ⊢
  | cons piece pieces ih =>
    rw [List.mapM_cons] at h ⊢
    obtain ⟨r, hr, h⟩ := bind_eq_ok_iff.mp h
    obtain ⟨rs', hrs, h⟩ := bind_eq_ok_iff.mp h
    exact bind_eq_ok_iff.mpr ⟨r, hpiece hr, bind_eq_ok_iff.mpr ⟨rs', ih hrs, h⟩⟩

/-- **Every attr accepts the same lists of build ids.** -/
theorem decodeWith_eq_ok_iff (a b : Attr) {rs : List BuildIdRecord} :
    decodeWith a bs = .ok rs ↔ decodeWith b bs = .ok rs := by
  have himp : ∀ a b, decodeWith a bs = .ok rs → decodeWith b bs = .ok rs := by
    intro a b h
    obtain ⟨rs', hrs, h⟩ := bind_eq_ok_iff.mp h
    exact bind_eq_ok_iff.mpr ⟨rs', mapM_decodePiece_ok b hrs, h⟩
  exact ⟨himp a b, himp b a⟩

theorem mapM_decodePiece_congr (a b : Attr) {pieces : List Bytes}
    (h : ∀ piece ∈ pieces, AttrFreeBytes piece) :
    pieces.mapM (decodePiece a) = pieces.mapM (decodePiece b) := by
  induction pieces with
  | nil => rw [List.mapM_nil, List.mapM_nil]
  | cons piece pieces ih =>
    obtain ⟨hpiece, hpieces⟩ := List.forall_mem_cons.mp h
    rw [List.mapM_cons, List.mapM_cons, ih hpieces, decodePiece, decodePiece,
      (Record.decode_eq_of_attrFree a b hpiece).1]

theorem decodeWith_eq_of_attrFree (a b : Attr)
    (h : ∀ piece ∈ (cutFrom 0 bs).values, AttrFreeBytes piece) :
    decodeWith a bs = decodeWith b bs := by
  rw [decodeWith, decodeWith, decodePieces, decodePieces, mapM_decodePiece_congr a b h]

end BuildIdList

namespace Record

/-- **Decoding depends only on the fields of an attr that shape records.** Attrs
that agree on the sample type, the read format, the user registers and the
switch for sample ids decode all bytes alike, as records of the data section
and as records put together from pieces. For bytes of a record that the kernel
never makes, or of a kind that is not understood, all attrs do: a file is read
alike whatever attr is found for such a record, and a list of build ids
whatever attr it is decoded with. -/
theorem decode_indifferent (a b : Attr) (bs : Bytes) :
    (a.ShapedLike b ∧ a.sampleRegsUser = b.sampleRegsUser →
      decode a bs = decode b bs ∧ decodeReassembled a bs = decodeReassembled b bs) ∧
    (AttrFreeBytes bs →
      decode a bs = decode b bs ∧ decodeReassembled a bs = decodeReassembled b bs ∧
        ∀ f : RecordFile, f.decodeFrame (.whole bs) = decode a bs ∧
          f.decodeFrame (.joined bs) = decodeReassembled a bs) ∧
    (∀ rs, BuildIdList.decode bs = .ok rs ↔ BuildIdList.decodeWith a bs = .ok rs) ∧
    ((∀ piece ∈ (BuildIdList.cutFrom 0 bs).values, AttrFreeBytes piece) →
      BuildIdList.decode bs = BuildIdList.decodeWith a bs) := by
  refine ⟨?_, ?_, ?_, ?_⟩
  · rintro ⟨hshape, hregs⟩
    exact decode_eq_of_parseBody_eq fun header _ => parseBody_congr hshape fun _ => hregs
  · intro hfree
    obtain ⟨hwhole, hjoined⟩ := decode_eq_of_attrFree a b hfree
    exact ⟨hwhole, hjoined, fun f => f.decodeFrame_of_attrFree a hfree⟩
  · intro rs
    rw [BuildIdList.decode_eq_decodeWith]
    exact BuildIdList.decodeWith_eq_ok_iff Attr.empty a
  · intro hpieces
    rw [BuildIdList.decode_eq_decodeWith]
    exact BuildIdList.decodeWith_eq_of_attrFree Attr.empty a hpieces

/-- The period of an event counts for no record, and no field of an attr counts
for a build id. -/
theorem decode_indifferent_comm_build_id :
    let a : Attr := { samplePeriodOrFreq := 4000 }
    let b : Attr := { config := 1, sampleStackUser := 8192 }
    let c : Attr := ({ sampleType := 7, sampleRegsUser := 3 } : Attr).set .sampleIdAll true
    let bs := (comm { pid := 1, tid := 2, comm := "worker" }).encode
    let payload := (buildId { misc := 2, pid := 1, filename := "/bin/app" }).encode
    ((a.ShapedLike b ∧ a.sampleRegsUser = b.sampleRegsUser) ∧ decode a bs = decode b bs) ∧
      (AttrFreeBytes payload ∧ decode b payload = decode c payload) ∧
      (∀ piece ∈ (BuildIdList.cutFrom 0 payload).values, AttrFreeBytes piece) ∧
      BuildIdList.decode payload = BuildIdList.decodeWith c payload := by
  intro a b c bs payload
  have hsame : a.ShapedLike b ∧ a.sampleRegsUser = b.sampleRegsUser := ⟨⟨rfl, rfl, rfl⟩, rfl⟩
  have hheader : RecordHeader.decode payload = .ok _ :=
    RecordHeader.decode_eq_ok_iff.mpr ⟨_, encode_eq _⟩
  have hfree : AttrFreeBytes payload := by
    intro h hh
    obtain rfl := Except.ok.inj (hheader.symm.trans hh)
    exact .inl (by decide)
  have hcut : (BuildIdList.cutFrom 0 payload).values = [payload] := by
    rw [BuildIdList.cutFrom, dif_neg (by decide), hheader]
    dsimp only
    rw [dif_neg (by decide), BuildIdList.cutFrom, dif_pos (by decide)]
    rfl
  have hpieces : ∀ piece ∈ (BuildIdList.cutFrom 0 payload).values, AttrFreeBytes piece := by
    rw [hcut]
    exact List.forall_mem_singleton.mpr hfree
  exact ⟨⟨hsame, ((decode_indifferent a b bs).1 hsame).1⟩,
    ⟨hfree, ((decode_indifferent b c payload).2.1 hfree).1⟩, hpieces,
    (decode_indifferent c c payload).2.2.2 hpieces⟩

end Record
end Profiler
