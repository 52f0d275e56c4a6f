/-
# The header and the tables of a file as bytes

What is written of a header, an attr or a range is read back, whatever follows
it. A table of entries of one size is cut at its entries, and any whole number
of ranges is the table of some ranges. The features that were noted in a
header are the ones it has, in the order of their numbers.

Key theorems: `Section.follows_parse`, `Section.exists_flatMap_encode`,
`Attr.decode_encode`, `FileAttr.decode_encode`, `FileHeader.parse_encode`,
`FileHeader.featureIds_foldl_setFeature`.
-/
import Mathlib.Data.List.Sort
import Profiler.File.Header
import Profiler.Proofs.Format

namespace Profiler

open Format Parse

variable {α : Type}

/-- A value is read from bytes that begin with its own. -/
theorem Parse.Follows.value_eq_ok_iff {p : Parse α} {F : Format α} (hp : Follows p F) {bs : Bytes}
    {v : α} : p.value bs = .ok v ↔ ∃ front rest, bs = front ++ rest ∧ F front v := by
  unfold Parse.value
  constructor
  · intro h
    cases hrun : p.run (Cursor.start bs) with
    | error e =>
      rw [hrun] at h
      cases h
    | ok r =>
      obtain ⟨w, c⟩ := r
      rw [hrun] at h
      cases h
      obtain ⟨front, hfront, hrest, -⟩ := hp.consumed hrun
      exact ⟨front, c.rest, hrest, hfront⟩
  · rintro ⟨front, rest, rfl, hfront⟩
    have hrun : p.run (Cursor.start (front ++ rest)) = _ := hp.reads hfront 0 rest
    rw [hrun]
    rfl

/-- What is written of a valid value is read back, whatever follows it. -/
theorem Parse.Follows.value_encode {p : Parse α} {encode : α → Bytes} {Valid : α → Prop}
    (hp : Follows p (written encode Valid)) {v : α} (hv : Valid v) (rest : Bytes) :
    p.value (encode v ++ rest) = .ok v :=
  hp.value_eq_ok_iff.mpr ⟨encode v, rest, rfl, hv, rfl⟩

theorem Bytes.chunks_flatMap {size : Nat} (hsize : 0 < size) {encode : α → Bytes} {vs : List α}
    (hlen : ∀ v ∈ vs, (encode v).length = size) :
    chunks size (vs.flatMap encode) = vs.map encode := by
  induction vs with
  | nil => simp [chunks]
  | cons v rest ih =>
    obtain ⟨hv, hrest⟩ := List.forall_mem_cons.mp hlen
    have hne : encode v ++ rest.flatMap encode ≠ [] := by
      intro h
      have hnil := List.append_eq_nil_iff.mp h
      rw [hnil.1, List.length_nil] at hv
      omega
    have hmore : ¬ (size = 0 ∨ encode v ++ rest.flatMap encode = []) := by
      rintro (h | h)
      · omega
      · exact hne h
    rw [List.flatMap_cons, chunks, dif_neg hmore, List.take_left' hv, List.drop_left' hv, ih hrest,
      List.map_cons]

/-! ### Ranges -/

namespace Section

theorem length_encode (s : Section) : s.encode.length = byteSize := by
  simp [encode, byteSize]

theorem follows_parse : Follows parse (written encode fun _ => True) := by
  refine Follows.congr
    (Follows.field Section.offset (fun _ _ => rfl) follows_u64 fun _ =>
    Follows.field Section.size (fun _ _ => rfl) follows_u64 fun _ =>
    Follows.built _) fun bs s => ?_
  simp only [nothing_eq_written, written_andThen_written, written, true_and, and_true,
    List.append_nil, encode]

theorem exists_encode {bs : Bytes} (h : bs.length = byteSize) : ∃ s : Section, bs = s.encode := by
  have hoffset : (bs.take 8).length = 8 := by
    rw [List.length_take, h]
    rfl
  have hsize : (bs.drop 8).length = 8 := by
    rw [List.length_drop, h]
    rfl
  refine ⟨⟨UInt64.ofNat (Bytes.toNat (bs.take 8)), UInt64.ofNat (Bytes.toNat (bs.drop 8))⟩, ?_⟩
  unfold encode
  rw [Bytes.u64_ofNat_toNat hoffset, Bytes.u64_ofNat_toNat hsize, List.take_append_drop]

theorem exists_flatMap_encode {n : Nat} {bs : Bytes} (h : bs.length = n * byteSize) :
    ∃ places : List Section, places.length = n ∧ bs = places.flatMap encode := by
  induction n generalizing bs with
  | zero =>
    rw [Nat.zero_mul] at h
    exact ⟨[], rfl, List.length_eq_zero_iff.mp h⟩
  | succ n ih =>
    rw [Nat.succ_mul] at h
    have hfirst : (bs.take byteSize).length = byteSize := by
      rw [List.length_take]
      omega
    have hrest : (bs.drop byteSize).length = n * byteSize := by
      rw [List.length_drop]
      omega
    obtain ⟨s, hs⟩ := exists_encode hfirst
    obtain ⟨places, hlen, hplaces⟩ := ih hrest
    refine ⟨s :: places, by rw [List.length_cons, hlen], ?_⟩
    rw [List.flatMap_cons, ← hs, ← hplaces, List.take_append_drop]

theorem length_flatMap_encode (places : List Section) :
    (places.flatMap encode).length = places.length * byteSize := by
  induction places with
  | nil => rw [List.flatMap_nil, List.length_nil, List.length_nil, Nat.zero_mul]
  | cons s rest ih =>
    rw [List.flatMap_cons, List.length_append, length_encode, ih, List.length_cons, Nat.succ_mul,
      Nat.add_comm]

theorem parse_encode (s : Section) : parse.value s.encode = .ok s := by
  have h : parse.value (s.encode ++ []) = .ok s := follows_parse.value_encode trivial []
  rwa [List.append_nil] at h

end Section

/-! ### Attrs -/

namespace Attr

theorem length_encode (a : Attr) : a.encode.length = byteSize := by
  show a.encode.length = 120
  unfold encode
  simp only [List.length_append, Bytes.length_u16, Bytes.length_u32, Bytes.length_u64]

-- An attr has too many fields for one format of all of them to be checked in
-- reasonable time, so its bytes are read field by field.
theorem reads_parse (a : Attr) : Reads parse a.encode a := by
  have h16 : ∀ v, Reads u16 (Bytes.u16 v) v := fun _ => follows_u16.reads ⟨trivial, rfl⟩
  unfold encode parse
  rw [← List.append_nil (_ ++ Bytes.u32 a.reserved3)]
  simp only [List.append_assoc]
  refine (reads_u32 _).bind ?_
  refine (reads_u32 _).bind ?_
  refine (reads_u64 _).bind ?_
  refine (reads_u64 _).bind ?_
  refine (reads_u64 _).bind ?_
  refine (reads_u64 _).bind ?_
  refine (reads_u64 _).bind ?_
  refine (reads_u32 _).bind ?_
  refine (reads_u32 _).bind ?_
  refine (reads_u64 _).bind ?_
  refine (reads_u64 _).bind ?_
  refine (reads_u64 _).bind ?_
  refine (reads_u64 _).bind ?_
  refine (reads_u32 _).bind ?_
  refine (reads_u32 _).bind ?_
  refine (reads_u64 _).bind ?_
  refine (reads_u32 _).bind ?_
  refine (h16 _).bind ?_
  refine (h16 _).bind ?_
  refine (reads_u32 _).bind ?_
  refine (reads_u32 _).bind ?_
  rw [Int32.toInt32_toUInt32]
  exact Reads.built a

theorem parse_encode (a : Attr) : parse.value a.encode = .ok a := by
  have hrun : parse.run (Cursor.start a.encode) = _ :=
    List.append_nil a.encode ▸ a.reads_parse 0 []
  unfold Parse.value
  rw [hrun]
  rfl

theorem decode_encode (a : Attr) : decode a.encode = .ok a := by
  have hlen := a.length_encode
  have hfixed : a.encode.fixed byteSize = a.encode := by
    rw [Bytes.fixed_take (Nat.le_of_eq hlen.symm), List.take_of_length_le (Nat.le_of_eq hlen)]
  unfold decode
  rw [if_neg (by rw [hlen]; decide), hfixed, parse_encode]

end Attr

namespace FileAttr

theorem length_encode (f : FileAttr) : f.encode.length = byteSize := by
  unfold encode byteSize
  rw [List.length_append, Attr.length_encode, Section.length_encode]

theorem decode_encode (f : FileAttr) : decode f.encode = .ok f := by
  have hlen := f.length_encode
  have hattr : f.encode.length - Section.byteSize = Attr.byteSize := by
    rw [hlen]
    rfl
  have htake : f.encode.take Attr.byteSize = f.attr.encode := List.take_left' f.attr.length_encode
  have hdrop : f.encode.drop Attr.byteSize = f.ids.encode := List.drop_left' f.attr.length_encode
  unfold decode
  rw [if_neg (by rw [hlen]; decide), hattr]
  refine bind_eq_ok_iff.mpr ⟨f.attr, ?_, ?_⟩
  · rw [htake]
    exact Attr.decode_encode f.attr
  · refine bind_eq_ok_iff.mpr ⟨f.ids, ?_, rfl⟩
    rw [hdrop]
    exact Section.parse_encode f.ids

theorem mapM_decode_encode (fs : List FileAttr) : (fs.map encode).mapM decode = .ok fs := by
  induction fs with
  | nil => rfl
  | cons f rest ih =>
    rw [List.map_cons, List.mapM_cons, decode_encode]
    refine bind_eq_ok_iff.mpr ⟨f, rfl, ?_⟩
    exact bind_eq_ok_iff.mpr ⟨rest, ih, rfl⟩

end FileAttr

/-! ### The header -/

namespace FileHeader

theorem length_encode (h : FileHeader) : h.encode.length = fileHeaderSize := by
  show h.encode.length = 104
  unfold encode
  simp only [List.length_append, Bytes.length_u64, Section.length_encode, Bytes.length_ofNat]
  rfl

theorem ofNat_toNat_features (features : BitVec 256) :
    BitVec.ofNat 256 (Bytes.toNat (Bytes.ofNat 32 features.toNat)) = features := by
  have hlt : features.toNat < 256 ^ 32 := Nat.lt_of_lt_of_le features.isLt (by decide)
  rw [Bytes.toNat_ofNat, Nat.mod_eq_of_lt hlt]
  exact BitVec.ofNat_toNat 256 features

theorem reads_parse (h : FileHeader) : Reads parse h.encode h := by
  have hsection : ∀ s : Section, Reads Section.parse s.encode s :=
    fun _ => Section.follows_parse.reads ⟨trivial, rfl⟩
  have hfeatures : Reads (take 32) (Bytes.ofNat 32 h.features.toNat) _ :=
    (follows_take 32).reads ⟨Bytes.length_ofNat 32 _, rfl⟩
  unfold encode parse
  rw [← List.append_nil (_ ++ Bytes.ofNat 32 h.features.toNat)]
  simp only [List.append_assoc]
  refine ((follows_take 8).reads (v := fileMagic) ⟨rfl, rfl⟩).bind ?_
  simp only [ne_eq, not_true_eq_false, if_false]
  refine (reads_u64 _).bind ?_
  refine (reads_u64 _).bind ?_
  refine (hsection _).bind ?_
  refine (hsection _).bind ?_
  refine (hsection _).bind ?_
  refine hfeatures.bind ?_
  rw [ofNat_toNat_features]
  exact Reads.built h

theorem parse_encode (h : FileHeader) (rest : Bytes) : parse.value (h.encode ++ rest) = .ok h := by
  have hrun : parse.run (Cursor.start (h.encode ++ rest)) = _ := h.reads_parse 0 rest
  unfold Parse.value
  rw [hrun]
  rfl

/-! ### Features of the header -/

theorem foldl_setFeature (h : FileHeader) (fs : List Feature) : fs.foldl setFeature h =
    { h with features := fs.foldl (fun bits f => bits ||| BitVec.twoPow 256 f) h.features } := by
  induction fs generalizing h with
  | nil => rfl
  | cons f rest ih =>
    rw [List.foldl_cons, ih]
    rfl

theorem hasFeature_setFeature (h : FileHeader) {f : Feature} (hf : f < Feature.bound)
    (g : Feature) : (h.setFeature f).hasFeature g = (h.hasFeature g || decide (g = f)) := by
  unfold Feature.bound at hf
  unfold setFeature hasFeature
  rw [BitVec.getLsbD_or, BitVec.getLsbD_twoPow]
  by_cases hg : g = f
  · simp [hg, hf]
  · simp [hg, Ne.symm hg]

theorem hasFeature_foldl_setFeature (h : FileHeader) {fs : List Feature}
    (hfs : ∀ f ∈ fs, f < Feature.bound) (g : Feature) :
    (fs.foldl setFeature h).hasFeature g = (h.hasFeature g || decide (g ∈ fs)) := by
  induction fs generalizing h with
  | nil => simp
  | cons f rest ih =>
    obtain ⟨hf, hrest⟩ := List.forall_mem_cons.mp hfs
    rw [List.foldl_cons, ih _ hrest, hasFeature_setFeature h hf, Bool.or_assoc]
    simp [List.mem_cons]

/-- The features that were noted, in the order of their numbers, are the ones
that the header has. -/
theorem featureIds_foldl_setFeature {h : FileHeader} (hnone : h.features = 0) {fs : List Feature}
    (hfs : ∀ f ∈ fs, f < Feature.bound) (hsorted : fs.Pairwise (· < ·)) :
    (fs.foldl setFeature h).featureIds = fs := by
  have hhas : ∀ g, (fs.foldl setFeature h).hasFeature g = true ↔ g ∈ fs := by
    intro g
    rw [hasFeature_foldl_setFeature h hfs]
    simp [hasFeature, hnone]
  have hmem : ∀ g, g ∈ (fs.foldl setFeature h).featureIds ↔ g ∈ fs := by
    intro g
    unfold featureIds
    rw [List.mem_filter, List.mem_range, hhas g]
    exact ⟨fun hg => hg.2, fun hg => ⟨hfs g hg, hg⟩⟩
  have hids : (fs.foldl setFeature h).featureIds.Pairwise (· < ·) :=
    List.pairwise_lt_range.filter _
  have hnodup : ∀ {l : List Nat}, l.Pairwise (· < ·) → l.Nodup := fun hl => hl.imp Nat.ne_of_lt
  exact ((List.perm_ext_iff_of_nodup (hnodup hids) (hnodup hsorted)).mpr hmem).eq_of_pairwise'
    hids hsorted

theorem length_featureIds_le (h : FileHeader) : h.featureIds.length ≤ Feature.bound := by
  unfold featureIds
  calc ((List.range Feature.bound).filter h.hasFeature).length
      ≤ (List.range Feature.bound).length := List.length_filter_le _ _
    _ = Feature.bound := List.length_range

theorem toNat_featureTable_size (h : FileHeader) :
    h.featureTable.size.toNat = h.featureIds.length * Section.byteSize := by
  have hle := h.length_featureIds_le
  unfold Feature.bound at hle
  unfold featureTable Section.byteSize
  exact UInt64.toNat_ofNat_of_lt' (by show _ < 18446744073709551616; omega)

end FileHeader
end Profiler
