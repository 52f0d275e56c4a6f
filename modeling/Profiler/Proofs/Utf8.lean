/-
# Text survives its encoding

`Utf8.decode` reads back what `Utf8.encode` writes, character by character: the
first byte of a character opens it with the range its second byte must be in,
and the last byte closes it with the character's number. In the other
direction decoding may replace what is no text, but it never makes a NUL: a
character it completes has a number that is valid and not zero
(`Pending.Sound`), so a text read up to the first NUL has none.

Key definitions: `Utf8.Valid`, `Utf8.Pending.Sound`.
Key theorems: `Utf8.decode_encode`, `Utf8.encode_decode`,
`Utf8.zero_mem_encode_iff`, `Utf8.nul_not_mem_decode`.
-/
import Mathlib.Algebra.Group.Nat.Defs
import Profiler.Text.Utf8

namespace Profiler
namespace Utf8

/-- Whether bytes are the encoding of some text. -/
def Valid (bs : Bytes) : Prop := bs.toByteArray.IsValidUTF8

/-! ### Bytes of a text -/

theorem encode_eq_toByteArray (s : String) : (encode s).toByteArray = s.toByteArray := by
  rw [← String.utf8Encode_toList]
  rfl

theorem length_encode (s : String) : (encode s).length = s.utf8ByteSize := by
  rw [← String.size_toByteArray, ← encode_eq_toByteArray, List.size_toByteArray]

theorem valid_iff {bs : Bytes} : Valid bs ↔ ∃ s, bs = encode s := by
  constructor
  · rintro ⟨l, h⟩
    refine ⟨String.ofList l, ?_⟩
    have hl : bs.toByteArray = (l.flatMap String.utf8EncodeChar).toByteArray := h
    have := congrArg (fun b : ByteArray => b.data.toList) hl
    simpa [encode] using this
  · rintro ⟨s, rfl⟩
    exact ⟨s.toList, by rw [encode_eq_toByteArray, String.utf8Encode_toList]⟩

/-! ### Reading what was written -/

theorem toNat_range (c : Char) :
    c.val.toNat < 0xD800 ∨ 0xDFFF < c.val.toNat ∧ c.val.toNat < 0x110000 := c.valid

theorem lead_two {b : Nat} (h : 0xC2 ≤ b) (h' : b < 0xE0) :
    lead b = .pending ⟨1, 0x80, 0xBF, b % 0x20⟩ := by
  rw [lead, if_neg (by omega), if_neg (by omega), if_pos h']

theorem lead_three {b : Nat} (h : 0xE0 ≤ b) (h' : b < 0xF0) :
    lead b = .pending ⟨2, if b = 0xE0 then 0xA0 else 0x80, if b = 0xED then 0x9F else 0xBF,
      b % 0x10⟩ := by
  rw [lead, if_neg (by omega), if_neg (by omega), if_neg (by omega), if_pos h']

theorem lead_four {b : Nat} (h : 0xF0 ≤ b) (h' : b < 0xF5) :
    lead b = .pending ⟨3, if b = 0xF0 then 0x90 else 0x80, if b = 0xF4 then 0x8F else 0xBF,
      b % 0x08⟩ := by
  rw [lead, if_neg (by omega), if_neg (by omega), if_neg (by omega), if_neg (by omega), if_pos h']

namespace Decoder

theorem push_lead {d : Decoder} {b : Nat} {p : Pending} (hd : d.pending = none) (hb : b < 256)
    (hp : lead b = .pending p) : d.push (UInt8.ofNat b) = { d with pending := some p } := by
  have hbyte : (UInt8.ofNat b).toNat = b := UInt8.toNat_ofNat_of_lt' hb
  simp [push, begin, hd, hbyte, hp]

theorem push_inner {d : Decoder} {b owed least most value : Nat}
    (hd : d.pending = some ⟨owed + 2, least, most, value⟩) (hb : b < 256) (hl : least ≤ b)
    (hm : b ≤ most) : d.push (UInt8.ofNat b) =
      { d with pending := some ⟨owed + 1, 0x80, 0xBF, value * 64 + b % 64⟩ } := by
  have hbyte : (UInt8.ofNat b).toNat = b := UInt8.toNat_ofNat_of_lt' hb
  simp [push, hd, hbyte, hl, hm]

theorem push_last {d : Decoder} {b least most value : Nat}
    (hd : d.pending = some ⟨1, least, most, value⟩) (hb : b < 256) (hl : least ≤ b)
    (hm : b ≤ most) : d.push (UInt8.ofNat b) =
      { d with text := d.text.push (Char.ofNat (value * 64 + b % 64)), pending := none } := by
  have hbyte : (UInt8.ofNat b).toNat = b := UInt8.toNat_ofNat_of_lt' hb
  simp [push, hd, hbyte, hl, hm]

/-- Between characters, the bytes of a character append it. -/
theorem foldl_push_char (d : Decoder) (c : Char) (hd : d.pending = none) :
    (String.utf8EncodeChar c).foldl push d = { d with text := d.text.push c } := by
  have hrange := toNat_range c
  have hc : Char.ofNat c.val.toNat = c := Char.ofNat_toNat c
  generalize hn : c.val.toNat = n at hrange hc
  rw [String.utf8EncodeChar]
  simp only [hn]
  split
  · -- one byte
    have hlead : lead n = .char c := by rw [lead, if_pos (by omega), hc]
    have hbyte : (UInt8.ofNat n).toNat = n := UInt8.toNat_ofNat_of_lt' (by show n < 256; omega)
    simp [push, begin, hd, hbyte, hlead]
  · split
    · -- two bytes
      rw [List.foldl_cons, push_lead hd (by omega) (lead_two (by omega) (by omega)),
        List.foldl_cons, push_last rfl (by omega) (by omega) (by omega), List.foldl_nil, ← hd]
      have hvalue : (n / 64 % 0x20 + 0xc0) % 0x20 * 64 + (n % 0x40 + 0x80) % 64 = n := by omega
      rw [hvalue, hc]
    · split
      · -- three bytes
        rw [List.foldl_cons, push_lead hd (by omega) (lead_three (by omega) (by omega)),
          List.foldl_cons,
          push_inner rfl (by omega) (by split <;> omega) (by split <;> omega),
          List.foldl_cons, push_last rfl (by omega) (by omega) (by omega), List.foldl_nil, ← hd]
        have hvalue : ((n / 4096 % 0x10 + 0xe0) % 0x10 * 64 + (n / 64 % 0x40 + 0x80) % 64) * 64 +
            (n % 0x40 + 0x80) % 64 = n := by omega
        rw [hvalue, hc]
      · -- four bytes
        rw [List.foldl_cons, push_lead hd (by omega) (lead_four (by omega) (by omega)),
          List.foldl_cons,
          push_inner rfl (by omega) (by split <;> omega) (by split <;> omega),
          List.foldl_cons, push_inner rfl (by omega) (by omega) (by omega),
          List.foldl_cons, push_last rfl (by omega) (by omega) (by omega), List.foldl_nil, ← hd]
        have hvalue : (((n / 262144 % 0x08 + 0xf0) % 0x08 * 64 + (n / 4096 % 0x40 + 0x80) % 64) *
            64 + (n / 64 % 0x40 + 0x80) % 64) * 64 + (n % 0x40 + 0x80) % 64 = n := by omega
        rw [hvalue, hc]

theorem foldl_push_chars : ∀ (cs : List Char) (d : Decoder), d.pending = none →
    (cs.flatMap String.utf8EncodeChar).foldl push d =
      { d with text := d.text ++ String.ofList cs }
  | [], d, _ => by simp
  | c :: cs, d, hd => by
    rw [List.flatMap_cons, List.foldl_append, foldl_push_char d c hd,
      foldl_push_chars cs { d with text := d.text.push c } hd]
    congr 1
    rw [← String.toList_inj]
    simp

end Decoder

/-- **Decoding reads back what was encoded.** -/
theorem decode_encode (s : String) : decode (encode s) = s := by
  rw [decode, scan, encode, Decoder.foldl_push_chars s.toList {} rfl]
  simp [Decoder.finish]

/-- Valid bytes are kept by decoding and encoding again. -/
theorem encode_decode {bs : Bytes} (h : Valid bs) : encode (decode bs) = bs := by
  obtain ⟨s, rfl⟩ := valid_iff.mp h
  rw [decode_encode]

/-! ### NUL -/

/-- Only NUL has a zero byte. -/
theorem zero_mem_utf8EncodeChar_iff {c : Char} :
    (0 : UInt8) ∈ String.utf8EncodeChar c ↔ c = '\x00' := by
  have hrange := toNat_range c
  have hc : c = '\x00' ↔ c.val.toNat = 0 := by
    rw [Char.ext_iff, ← UInt32.toNat_inj]
    rfl
  rw [hc, String.utf8EncodeChar]
  generalize c.val.toNat = n at hrange
  have hzero : ∀ m, m < 256 → ((0 : UInt8) = UInt8.ofNat m ↔ m = 0) := fun m hm => by
    rw [← UInt8.toNat_inj, UInt8.toNat_ofNat_of_lt' hm]
    exact eq_comm
  split
  · rw [List.mem_singleton, hzero n (by omega)]
  · split
    · simp only [List.mem_cons, List.not_mem_nil, or_false]
      rw [hzero _ (by omega), hzero _ (by omega)]
      omega
    · split
      · simp only [List.mem_cons, List.not_mem_nil, or_false]
        rw [hzero _ (by omega), hzero _ (by omega), hzero _ (by omega)]
        omega
      · simp only [List.mem_cons, List.not_mem_nil, or_false]
        rw [hzero _ (by omega), hzero _ (by omega), hzero _ (by omega), hzero _ (by omega)]
        omega

theorem zero_mem_encode_iff {s : String} : (0 : UInt8) ∈ encode s ↔ '\x00' ∈ s.toList := by
  simp only [encode, List.mem_flatMap, zero_mem_utf8EncodeChar_iff, exists_eq_right]

/-- The least number that an open character can still get. -/
def Pending.lowest (p : Pending) : Nat := (p.value * 64 + p.least % 64) * 64 ^ (p.owed - 1)

/-- The greatest number that an open character can still get. -/
def Pending.highest (p : Pending) : Nat :=
  (p.value * 64 + p.most % 64 + 1) * 64 ^ (p.owed - 1) - 1

/-- However an open character goes on, its number is that of a character other
than NUL. -/
structure Pending.Sound (p : Pending) : Prop where
  owed_pos : 0 < p.owed
  owed_le : p.owed ≤ 3
  least : 0x80 ≤ p.least
  most : p.most ≤ 0xBF
  lowest_pos : 0 < p.lowest
  valid : p.highest < 0xD800 ∨ 0xDFFF < p.lowest ∧ p.highest < 0x110000

theorem ofNat_ne_nul {n : Nat} (hpos : 0 < n)
    (h : n < 0xD800 ∨ 0xDFFF < n ∧ n < 0x110000) : Char.ofNat n ≠ '\x00' := by
  have hvalid : n.isValidChar := h
  intro h0
  rw [Char.ofNat, dif_pos hvalid] at h0
  have hn : n = 0 := congrArg Char.toNat h0
  omega

theorem lead_sound {b : Nat} {p : Pending} (h : lead b = .pending p) : p.Sound := by
  unfold lead at h
  split at h
  · simp at h
  split at h
  · simp at h
  split at h
  · cases h
    constructor <;> simp [Pending.lowest, Pending.highest] <;> omega
  split at h
  · cases h
    constructor <;> simp [Pending.lowest, Pending.highest] <;> split <;> (try split) <;> omega
  split at h
  · cases h
    constructor <;> simp [Pending.lowest, Pending.highest] <;> split <;> (try split) <;> omega
  · simp at h

/-- A byte in range only narrows what an open character can become. -/
theorem Pending.Sound.next {owed least most value b : Nat}
    (h : Sound ⟨owed + 2, least, most, value⟩) (hl : least ≤ b) (hm : b ≤ most) :
    Sound ⟨owed + 1, 0x80, 0xBF, value * 64 + b % 64⟩ := by
  obtain ⟨-, howed, hleast, hmost, hlow, hvalid⟩ := h
  have hlo : least % 64 ≤ b % 64 := by
    simp only at hleast hmost
    omega
  have hhi : b % 64 ≤ most % 64 := by
    simp only at hleast hmost
    omega
  have hlowest : lowest ⟨owed + 2, least, most, value⟩ ≤
      lowest ⟨owed + 1, 0x80, 0xBF, value * 64 + b % 64⟩ := by
    simp only [lowest, Nat.add_sub_cancel, Nat.reduceMod, Nat.add_zero,
      show owed + 2 - 1 = owed + 1 by omega, Nat.pow_succ', ← Nat.mul_assoc]
    exact Nat.mul_le_mul_right _ (by omega)
  have hhighest : highest ⟨owed + 1, 0x80, 0xBF, value * 64 + b % 64⟩ ≤
      highest ⟨owed + 2, least, most, value⟩ := by
    simp only [highest, Nat.add_sub_cancel, Nat.reduceMod,
      show owed + 2 - 1 = owed + 1 by omega, Nat.pow_succ', ← Nat.mul_assoc]
    exact Nat.sub_le_sub_right (Nat.mul_le_mul_right _ (by omega)) 1
  refine ⟨Nat.succ_pos _, by simp only at howed ⊢; omega, Nat.le_refl _, Nat.le_refl _, ?_, ?_⟩
  · omega
  · omega

/-- What a decoder of bytes without NUL keeps: no NUL in the text, and none to
come of the open character. -/
def Decoder.NulFree (d : Decoder) : Prop :=
  '\x00' ∉ d.text.toList ∧ ∀ p ∈ d.pending, p.Sound

namespace Decoder

theorem NulFree.push_text {d : Decoder} (h : d.NulFree) {c : Char} (hc : c ≠ '\x00') :
    '\x00' ∉ (d.text.push c).toList := by
  simp [h.1, Ne.symm hc]

theorem NulFree.begin {d : Decoder} (h : '\x00' ∉ d.text.toList) {b : Nat} (hb : 0 < b) :
    (d.begin b).NulFree := by
  have hd : NulFree { d with pending := none } := ⟨h, by simp⟩
  unfold Decoder.begin
  split
  · next c hlead =>
    have hc : c ≠ '\x00' := by
      unfold lead at hlead
      split at hlead
      · next hlt =>
        cases hlead
        exact ofNat_ne_nul hb (Or.inl (by omega))
      · repeat' split at hlead
        all_goals simp at hlead
    exact ⟨hd.push_text hc, by simp⟩
  · next p hlead =>
    refine ⟨h, fun q hq => ?_⟩
    cases hq
    exact lead_sound hlead
  · exact ⟨hd.push_text (by decide), by simp⟩

theorem NulFree.push {d : Decoder} (h : d.NulFree) {b : UInt8} (hb : b ≠ 0) :
    (d.push b).NulFree := by
  have hpos : 0 < b.toNat := by
    rw [Nat.pos_iff_ne_zero]
    exact fun h0 => hb (UInt8.toNat_inj.mp h0)
  unfold Decoder.push
  split
  · exact NulFree.begin h.1 hpos
  · next p hp =>
    have hsound := h.2 p hp
    obtain ⟨owed, least, most, value⟩ := p
    split
    · next hin =>
      split
      · next howed =>
        simp only at howed
        subst howed
        obtain ⟨-, -, hleast, hmost, hlow, hvalid⟩ := hsound
        simp only [Pending.lowest, Pending.highest] at hleast hmost hlow hvalid hin ⊢
        exact ⟨h.push_text (ofNat_ne_nul (by omega) (by omega)), by simp⟩
      · next howed =>
        have hpos' := hsound.owed_pos
        simp only at howed hpos' hin ⊢
        obtain ⟨more, rfl⟩ : ∃ more, owed = more + 2 := ⟨owed - 2, by omega⟩
        refine ⟨h.1, fun q hq => ?_⟩
        cases hq
        exact hsound.next hin.1 hin.2
    · exact NulFree.begin (h.push_text (by decide : replacement ≠ _)) hpos

theorem NulFree.foldl : ∀ (bs : Bytes) {d : Decoder}, d.NulFree → (0 : UInt8) ∉ bs →
    (bs.foldl Decoder.push d).NulFree
  | [], _, h, _ => h
  | b :: bs, d, h, hbs => by
    rw [List.mem_cons, not_or] at hbs
    exact NulFree.foldl bs (h.push (Ne.symm hbs.1)) hbs.2

end Decoder

theorem nul_not_mem_decode {bs : Bytes} (h : (0 : UInt8) ∉ bs) : '\x00' ∉ (decode bs).toList := by
  have hfree : (bs.foldl Decoder.push {}).NulFree :=
    Decoder.NulFree.foldl bs ⟨by simp, by simp⟩ h
  rw [decode, scan, Decoder.finish]
  split
  · exact hfree.1
  · exact hfree.push_text (by decide)

end Utf8
end Profiler
