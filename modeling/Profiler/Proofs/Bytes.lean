/-
# Words, texts and pieces inside a run of bytes

A word and its bytes determine each other, so a word field loses nothing in
either direction; the same holds of a list of words. A prefix of known length,
or one that the first NUL ends, is found again whatever follows it. The pieces
of a run are the run.

Key theorems: `Bytes.toNat_ofNat`, `Bytes.ofNat_toNat`, `Bytes.u64_ofNat_toNat`,
`Bytes.u64s_words`, `Bytes.words_u64s`, `Bytes.splitAt?_append`,
`Bytes.untilNul?_eq_some_iff`, `Bytes.flatten_chunks`.
-/
import Mathlib.Algebra.Group.Nat.Defs
import Mathlib.Data.List.TakeWhile
import Profiler.Bytes

namespace Profiler
namespace Bytes

/-! ### Numbers and their bytes -/

theorem toNat_lt : ∀ bs : Bytes, toNat bs < 256 ^ bs.length
  | [] => by simp [toNat]
  | b :: rest => by
    have ih := toNat_lt rest
    have hb := b.toNat_lt
    simp only [toNat, List.length_cons, Nat.pow_succ]
    omega

theorem toNat_ofNat (width n : Nat) : toNat (ofNat width n) = n % 256 ^ width := by
  induction width generalizing n with
  | zero => simp [ofNat, toNat, Nat.mod_one]
  | succ width ih =>
    have hsplit : n % 256 ^ (width + 1) = n % 256 + 256 * (n / 256 % 256 ^ width) := by
      rw [Nat.pow_succ', Nat.mod_mul]
    rw [hsplit, ofNat, toNat, ih]
    rfl

theorem ofNat_toNat : ∀ bs : Bytes, ofNat bs.length (toNat bs) = bs
  | [] => rfl
  | b :: rest => by
    have hb := b.toNat_lt
    have hdiv : (b.toNat + 256 * toNat rest) / 256 = toNat rest := by omega
    have hmod : UInt8.ofNat (b.toNat + 256 * toNat rest) = b := by
      rw [← UInt8.toNat_inj]
      simp
    simp only [List.length_cons, toNat, ofNat, hdiv, hmod, ofNat_toNat rest]

/-! ### Words -/

@[simp] theorem length_u16 (v : UInt16) : (u16 v).length = 2 := length_ofNat 2 _

@[simp] theorem length_u32 (v : UInt32) : (u32 v).length = 4 := length_ofNat 4 _

@[simp] theorem length_u64 (v : UInt64) : (u64 v).length = 8 := length_ofNat 8 _

theorem u16_ofNat_toNat {bs : Bytes} (h : bs.length = 2) : u16 (UInt16.ofNat (toNat bs)) = bs := by
  have hlt := toNat_lt bs
  rw [h] at hlt
  rw [u16, UInt16.toNat_ofNat_of_lt' (by exact hlt), ← h, ofNat_toNat]

theorem u32_ofNat_toNat {bs : Bytes} (h : bs.length = 4) : u32 (UInt32.ofNat (toNat bs)) = bs := by
  have hlt := toNat_lt bs
  rw [h] at hlt
  rw [u32, UInt32.toNat_ofNat_of_lt' (by exact hlt), ← h, ofNat_toNat]

theorem u64_ofNat_toNat {bs : Bytes} (h : bs.length = 8) : u64 (UInt64.ofNat (toNat bs)) = bs := by
  have hlt := toNat_lt bs
  rw [h] at hlt
  rw [u64, UInt64.toNat_ofNat_of_lt' (by exact hlt), ← h, ofNat_toNat]

@[simp] theorem ofNat_toNat_u16 (v : UInt16) : UInt16.ofNat (toNat (u16 v)) = v := by
  have hlt : v.toNat < 256 ^ 2 := Nat.lt_of_lt_of_le v.toNat_lt (by decide)
  rw [u16, toNat_ofNat, Nat.mod_eq_of_lt hlt, UInt16.ofNat_toNat]

@[simp] theorem ofNat_toNat_u32 (v : UInt32) : UInt32.ofNat (toNat (u32 v)) = v := by
  have hlt : v.toNat < 256 ^ 4 := Nat.lt_of_lt_of_le v.toNat_lt (by decide)
  rw [u32, toNat_ofNat, Nat.mod_eq_of_lt hlt, UInt32.ofNat_toNat]

@[simp] theorem ofNat_toNat_u64 (v : UInt64) : UInt64.ofNat (toNat (u64 v)) = v := by
  have hlt : v.toNat < 256 ^ 8 := Nat.lt_of_lt_of_le v.toNat_lt (by decide)
  rw [u64, toNat_ofNat, Nat.mod_eq_of_lt hlt, UInt64.ofNat_toNat]

@[simp] theorem u64s_nil : u64s [] = [] := rfl

@[simp] theorem u64s_cons (v : UInt64) (vs : List UInt64) : u64s (v :: vs) = u64 v ++ u64s vs := rfl

@[simp] theorem length_u64s : ∀ vs : List UInt64, (u64s vs).length = 8 * vs.length
  | [] => rfl
  | v :: vs => by
    simp only [u64s_cons, List.length_append, length_u64, length_u64s vs, List.length_cons]
    omega

@[simp] theorem length_words : ∀ (count : Nat) (bs : Bytes), (words count bs).length = count
  | 0, _ => rfl
  | count + 1, bs => by simp [words, length_words count]

theorem u64s_words : ∀ (count : Nat) (bs : Bytes), bs.length = count * 8 →
    u64s (words count bs) = bs
  | 0, bs, h => by simp [words, List.length_eq_zero_iff.mp (by omega : bs.length = 0)]
  | count + 1, bs, h => by
    have hword : (bs.take 8).length = 8 := by
      rw [List.length_take]
      omega
    have hrest : (bs.drop 8).length = count * 8 := by
      rw [List.length_drop]
      omega
    rw [words, u64s_cons, u64_ofNat_toNat hword, u64s_words count _ hrest, List.take_append_drop]

theorem words_u64s : ∀ (vs : List UInt64) (rest : Bytes), words vs.length (u64s vs ++ rest) = vs
  | [], _ => rfl
  | v :: vs, rest => by
    have hword : (u64 v ++ (u64s vs ++ rest)).take 8 = u64 v := List.take_left' (length_u64 v)
    have hrest : (u64 v ++ (u64s vs ++ rest)).drop 8 = u64s vs ++ rest :=
      List.drop_left' (length_u64 v)
    rw [List.length_cons, words, u64s_cons, List.append_assoc, hword, hrest, ofNat_toNat_u64,
      words_u64s vs rest]

/-! ### Prefixes -/

theorem splitAt?_append {n : Nat} {front : Bytes} (rest : Bytes) (h : front.length = n) :
    splitAt? n (front ++ rest) = some (front, rest) := by
  rw [splitAt?, List.take_left' h, List.drop_left' h, if_pos h]

theorem splitAt?_eq_some_iff {n : Nat} {bs front rest : Bytes} :
    splitAt? n bs = some (front, rest) ↔ bs = front ++ rest ∧ front.length = n := by
  constructor
  · intro h
    obtain ⟨rfl, rfl, hle⟩ := splitAt?_eq_some h
    exact ⟨(List.take_append_drop n bs).symm, List.length_take_of_le hle⟩
  · rintro ⟨rfl, h⟩
    exact splitAt?_append rest h

theorem splitAt?_eq_none_iff {n : Nat} {bs : Bytes} : splitAt? n bs = none ↔ bs.length < n := by
  rw [splitAt?, List.length_take]
  split <;> simp <;> omega

/-- The first NUL ends a text, whatever follows it. -/
theorem untilNul?_eq_some_iff {bs text rest : Bytes} :
    untilNul? bs = some (text, rest) ↔ bs = text ++ 0 :: rest ∧ (0 : UInt8) ∉ text := by
  constructor
  · intro h
    rw [untilNul?] at h
    have hsplit := List.takeWhile_append_dropWhile (p := (· != (0 : UInt8))) (l := bs)
    split at h
    · simp at h
    · next b tail hdrop =>
      simp only [Option.some.injEq, Prod.mk.injEq] at h
      obtain ⟨rfl, rfl⟩ := h
      have hb : b = 0 := by
        have := List.head_dropWhile_not (p := (· != (0 : UInt8))) (l := bs) (by simp [hdrop])
        simpa [hdrop] using this
      subst hb
      refine ⟨by rw [← hdrop, hsplit], fun hmem => ?_⟩
      simpa using List.mem_takeWhile_imp hmem
  · rintro ⟨rfl, h⟩
    have hne : ∀ b ∈ text, (b != (0 : UInt8)) = true := fun b hb => by
      have : b ≠ 0 := fun h0 => h (h0 ▸ hb)
      simpa using this
    rw [untilNul?, List.dropWhile_append_of_pos hne, List.takeWhile_append_of_pos hne]
    simp

theorem untilNul?_append {bs text rest : Bytes} (h : untilNul? bs = some (text, rest))
    (more : Bytes) : untilNul? (bs ++ more) = some (text, rest ++ more) := by
  obtain ⟨rfl, htext⟩ := untilNul?_eq_some_iff.mp h
  exact untilNul?_eq_some_iff.mpr ⟨by simp, htext⟩

theorem takeWhile_append_nul {text : Bytes} (h : (0 : UInt8) ∉ text) (rest : Bytes) :
    (text ++ 0 :: rest).takeWhile (· != 0) = text := by
  have hne : ∀ b ∈ text, (b != (0 : UInt8)) = true := fun b hb => by
    have : b ≠ 0 := fun h0 => h (h0 ▸ hb)
    simpa using this
  rw [List.takeWhile_append_of_pos hne]
  simp

theorem fixed_eq_append {bs : Bytes} {length : Nat} (h : bs.length ≤ length) :
    fixed bs length = bs ++ List.replicate (length - bs.length) 0 := by
  rw [fixed, List.take_of_length_le h]

theorem fixed_take {bs : Bytes} {length : Nat} (h : length ≤ bs.length) :
    fixed bs length = bs.take length := by
  rw [fixed, Nat.sub_eq_zero_of_le h, List.replicate_zero, List.append_nil]

/-! ### Pieces -/

theorem flatten_chunks {size : Nat} (hsize : 0 < size) (bs : Bytes) :
    (chunks size bs).flatten = bs := by
  induction bs using chunks.induct size with
  | case1 bs h =>
    have hnil : bs = [] := h.resolve_left (by omega)
    rw [chunks, dif_pos h, hnil, List.flatten_nil]
  | case2 bs h ih => rw [chunks, dif_neg h, List.flatten_cons, ih, List.take_append_drop]

theorem exists_of_mem_chunks {size : Nat} {bs piece : Bytes} (h : piece ∈ chunks size bs) :
    ∃ start, piece = (bs.drop start).take size := by
  induction bs using chunks.induct size with
  | case1 bs hend =>
    rw [chunks, dif_pos hend] at h
    simp at h
  | case2 bs hmore ih =>
    rw [chunks, dif_neg hmore, List.mem_cons] at h
    rcases h with rfl | h
    · exact ⟨0, rfl⟩
    · obtain ⟨start, rfl⟩ := ih h
      exact ⟨size + start, by rw [List.drop_drop]⟩

theorem length_le_of_mem_chunks {size : Nat} {bs piece : Bytes} (h : piece ∈ chunks size bs) :
    piece.length ≤ size := by
  obtain ⟨start, rfl⟩ := exists_of_mem_chunks h
  exact List.length_take_le size _

theorem length_le_length_of_mem_chunks {size : Nat} {bs piece : Bytes}
    (h : piece ∈ chunks size bs) : piece.length ≤ bs.length := by
  obtain ⟨start, rfl⟩ := exists_of_mem_chunks h
  exact ((List.take_sublist _ _).trans (List.drop_sublist _ _)).length_le

theorem chunks_ne_nil {size : Nat} (hsize : 0 < size) {bs : Bytes} (h : bs ≠ []) :
    chunks size bs ≠ [] := by
  rw [chunks, dif_neg (by simp [h]; omega)]
  simp

end Bytes
end Profiler
