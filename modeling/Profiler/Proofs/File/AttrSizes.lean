/-
# Attrs of other sizes

The kernel's attr has grown with time, so a file may hold attrs that are shorter
or longer than this library's. Any 120 bytes are the bytes of one attr
(`Attr.exists_encode`), so reading an attr cuts its bytes to that length or pads
them with zeros, wherever the cut is, and loses nothing else
(`Attr.decode_eq_ok_iff`). An entry of an attr table is read in the same way up
to the place of its ids, which is at the end of the entry whatever its size
(`FileAttr.decode_append`).

Key theorems: `Bytes.forall_of_forall_append`, `Attr.exists_encode`,
`Attr.decode_eq_ok_iff`, `Attr.decode_append`, `FileAttr.decode_append`,
`FileAttr.decode_of_size`.
-/
import Profiler.Proofs.File.Tables

namespace Profiler

/-- What holds of all bytes that begin with a word holds of all that are long
enough for one. -/
theorem Bytes.forall_of_forall_append {α : Type} {word : α → Bytes} {width : Nat}
    (hword : ∀ bs : Bytes, bs.length = width → ∃ v, word v = bs) {n : Nat} {P : Bytes → Prop}
    (h : ∀ v rest, rest.length = n → P (word v ++ rest)) (bs : Bytes)
    (hbs : bs.length = n + width) : P bs := by
  obtain ⟨v, hv⟩ := hword (bs.take width) (by rw [List.length_take]; omega)
  have hrest : (bs.drop width).length = n := by
    rw [List.length_drop]
    omega
  have hP := h v (bs.drop width) hrest
  rwa [hv, List.take_append_drop] at hP

namespace Attr

theorem exists_encode : ∀ bs : Bytes, bs.length = byteSize → ∃ a : Attr, bs = a.encode := by
  have h16 {n : Nat} {P : Bytes → Prop} :
      (∀ v rest, rest.length = n → P (Bytes.u16 v ++ rest)) → ∀ bs, bs.length = n + 2 → P bs :=
    Bytes.forall_of_forall_append fun _ h => ⟨_, Bytes.u16_ofNat_toNat h⟩
  have h32 {n : Nat} {P : Bytes → Prop} :
      (∀ v rest, rest.length = n → P (Bytes.u32 v ++ rest)) → ∀ bs, bs.length = n + 4 → P bs :=
    Bytes.forall_of_forall_append fun _ h => ⟨_, Bytes.u32_ofNat_toNat h⟩
  have h64 {n : Nat} {P : Bytes → Prop} :
      (∀ v rest, rest.length = n → P (Bytes.u64 v ++ rest)) → ∀ bs, bs.length = n + 8 → P bs :=
    Bytes.forall_of_forall_append fun _ h => ⟨_, Bytes.u64_ofNat_toNat h⟩
  show ∀ bs : Bytes, bs.length = 120 → ∃ a : Attr, bs = a.encode
  refine h32 fun type => ?_
  refine h32 fun size => ?_
  refine h64 fun config => ?_
  refine h64 fun samplePeriodOrFreq => ?_
  refine h64 fun sampleType => ?_
  refine h64 fun readFormat => ?_
  refine h64 fun flags => ?_
  refine h32 fun wakeup => ?_
  refine h32 fun bpType => ?_
  refine h64 fun config1 => ?_
  refine h64 fun config2 => ?_
  refine h64 fun branchSampleType => ?_
  refine h64 fun sampleRegsUser => ?_
  refine h32 fun sampleStackUser => ?_
  refine h32 fun clockId => ?_
  refine h64 fun sampleRegsIntr => ?_
  refine h32 fun auxWatermark => ?_
  refine h16 fun sampleMaxStack => ?_
  refine h16 fun reserved2 => ?_
  refine h32 fun auxSampleSize => ?_
  refine h32 fun reserved3 => ?_
  intro rest hrest
  obtain rfl := List.length_eq_zero_iff.mp hrest
  refine ⟨⟨type, size, config, samplePeriodOrFreq, sampleType, readFormat, flags, wakeup, bpType,
    config1, config2, branchSampleType, sampleRegsUser, sampleStackUser, clockId.toInt32,
    sampleRegsIntr, auxWatermark, sampleMaxStack, reserved2, auxSampleSize, reserved3⟩, ?_⟩
  unfold encode
  dsimp only
  rw [UInt32.toUInt32_toInt32]
  simp only [List.append_assoc, List.append_nil]

theorem encode_inj {a b : Attr} (h : a.encode = b.encode) : a = b := by
  have hvalue : parse.value a.encode = .ok b := by rw [h, parse_encode]
  rw [parse_encode] at hvalue
  exact Except.ok.inj hvalue

/-- Reading an attr cuts its bytes or pads them with zeros, and does nothing else. -/
theorem decode_eq_ok_iff {bs : Bytes} (h : 8 ≤ bs.length) {a : Attr} :
    decode bs = .ok a ↔ a.encode = bs.fixed byteSize := by
  obtain ⟨b, hb⟩ := exists_encode (bs.fixed byteSize) (Bytes.length_fixed bs byteSize)
  have hread : decode bs = .ok b := by
    unfold decode
    rw [if_neg (Nat.not_lt.mpr h), hb, parse_encode]
  rw [hread, hb, Except.ok.injEq]
  exact ⟨fun hba => congrArg encode hba.symm, fun hab => encode_inj hab.symm⟩

/-- Bytes that a newer kernel adds do not count. -/
theorem decode_append (a : Attr) (more : Bytes) : decode (a.encode ++ more) = .ok a := by
  have hlen : (a.encode ++ more).length = byteSize + more.length := by
    rw [List.length_append, a.length_encode]
  rw [decode_eq_ok_iff (by rw [hlen, byteSize]; omega), Bytes.fixed_take (by omega),
    List.take_left' a.length_encode]

end Attr

namespace FileAttr

theorem decode_append {bs : Bytes} {a : Attr} (h : Attr.decode bs = .ok a) (ids : Section) :
    decode (bs ++ ids.encode) = .ok ⟨a, ids⟩ := by
  have hlen : (bs ++ ids.encode).length - Section.byteSize = bs.length := by
    rw [List.length_append, ids.length_encode, Nat.add_sub_cancel]
  unfold decode
  rw [if_neg (by rw [List.length_append, ids.length_encode]; omega), hlen]
  refine bind_eq_ok_iff.mpr ⟨a, ?_, bind_eq_ok_iff.mpr ⟨ids, ?_, rfl⟩⟩
  · rw [List.take_left, h]
  · rw [List.drop_left, ids.parse_encode]

/-- **Attrs of every size are read.** At least eight bytes are an attr: the one
whose own bytes are these, cut to 120 or padded with zeros. An attr is read
from its bytes whatever follows them. An entry of `n` bytes, made of what fits
of an attr, of anything behind it and of the place of its ids, is that place
and the attr without the bytes that did not fit. -/
theorem decode_of_size :
    (∀ d : Bytes, 8 ≤ d.length → ∃ a, Attr.decode d = .ok a ∧
      a.encode = d.take 120 ++ List.replicate (120 - d.length) 0) ∧
    (∀ (a : Attr) (more : Bytes), Attr.decode (a.encode ++ more) = .ok a) ∧
    ∀ (a : Attr) (ids : Section) (n : Nat) (more : Bytes), 24 ≤ n → more.length = n - 136 →
      let front := a.encode.take (n - 16)
      let entry := front ++ more ++ ids.encode
      entry.length = n ∧ ∃ b, decode entry = .ok ⟨b, ids⟩ ∧
        b.encode = front ++ List.replicate (120 - (n - 16)) 0 := by
  have hread : ∀ d : Bytes, 8 ≤ d.length → ∃ a, Attr.decode d = .ok a ∧
      a.encode = d.take 120 ++ List.replicate (120 - d.length) 0 := by
    intro d hd
    obtain ⟨a, ha⟩ := Attr.exists_encode (d.fixed Attr.byteSize) (d.length_fixed Attr.byteSize)
    exact ⟨a, (Attr.decode_eq_ok_iff hd).mpr ha.symm, ha.symm⟩
  refine ⟨hread, Attr.decode_append, ?_⟩
  intro a ids n more hn hmore front entry
  have hattr : a.encode.length = 120 := a.length_encode
  have hids : ids.encode.length = 16 := ids.length_encode
  have hfront : front.length = min (n - 16) 120 := by rw [List.length_take, hattr]
  have hbody : (front ++ more).length = n - 16 := by
    rw [List.length_append]
    omega
  obtain ⟨b, hb, hbytes⟩ := hread (front ++ more) (by omega)
  refine ⟨?_, b, decode_append hb ids, ?_⟩
  · show (front ++ more ++ ids.encode).length = n
    rw [List.length_append]
    omega
  · have hkept : (front ++ more).take 120 = front := by
      by_cases hfits : n - 16 ≤ 120
      · have hnone : more = [] := List.length_eq_zero_iff.mp (by omega)
        rw [hnone, List.append_nil, List.take_of_length_le (by omega)]
      · exact List.take_left' (by omega)
    rw [hbytes, hkept, hbody]

/-- An entry of 28 bytes holds half of the third field, and the rest is zero. -/
theorem decode_of_size_inside_config :
    let a : Attr := { type := 1, size := 120, config := 0x1122334455667788, flags := 7 }
    let ids : Section := ⟨200, 8⟩
    8 ≤ (a.encode.take 12).length ∧ 24 ≤ 28 ∧ ([] : Bytes).length = 28 - 136 ∧
      Attr.decode (a.encode.take 12) = .ok { type := 1, size := 120, config := 0x55667788 } ∧
      decode (a.encode.take 12 ++ [] ++ ids.encode) =
        .ok ⟨{ type := 1, size := 120, config := 0x55667788 }, ids⟩ := by
  intro a ids
  have hlong : 8 ≤ (a.encode.take 12).length := by decide +kernel
  have hshort : a.encode.take 12 ++ List.replicate 108 0 =
      ({ type := 1, size := 120, config := 0x55667788 } : Attr).encode := by decide +kernel
  have hcut : (a.encode.take 12).take 120 ++ List.replicate (120 - (a.encode.take 12).length) 0 =
      a.encode.take 12 ++ List.replicate 108 0 := by decide +kernel
  clear_value a
  obtain ⟨hread, -, hentry⟩ := decode_of_size
  obtain ⟨b, hb, hbytes⟩ := hread (a.encode.take 12) hlong
  obtain ⟨-, c, hc, hcbytes⟩ := hentry a ids 28 [] (by decide) rfl
  rw [Attr.encode_inj (hbytes.trans (hcut.trans hshort))] at hb
  rw [Attr.encode_inj (hcbytes.trans hshort)] at hc
  exact ⟨hlong, by decide, rfl, hb, hc⟩

end FileAttr
end Profiler
