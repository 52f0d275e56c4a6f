/-
# The lists of a stored record

The encoder writes the number of entries of a list as a word. Every entry takes
at least one byte, so where the encoding as a whole has a length that is a
word, no number of entries is too great for it.

Key theorem: `Record.countsFit_of_length`.
-/
import Profiler.Proofs.Record.RoundTrip

namespace Profiler

/-! ### Bytes for each entry -/

theorem le_length_flatMap_encodeCounter (fmt : ReadFormat) :
    ∀ cs : List (UInt64 × UInt64), 8 * cs.length ≤ (cs.flatMap (encodeCounter fmt)).length
  | [] => Nat.zero_le _
  | c :: cs => by
    have ih := le_length_flatMap_encodeCounter fmt cs
    simp only [List.flatMap_cons, List.length_append, List.length_cons, encodeCounter,
      Bytes.length_u64]
    omega

theorem ReadValues.le_length_encode {fmt : ReadFormat} {v : ReadValues} (hv : v.WellFormed fmt) :
    8 * v.values.length ≤ (v.encode fmt).length := by
  have hcounters := le_length_flatMap_encodeCounter fmt v.values
  unfold ReadValues.encode
  cases hgroup : fmt.has .group with
  | true =>
    simp only [if_true, List.length_append]
    omega
  | false =>
    rw [hv.single hgroup]
    simp only [Bool.false_eq_true, if_false, List.length_append, Bytes.length_u64]
    omega

theorem length_flatMap_branch : ∀ bs : List Branch,
    (bs.flatMap Branch.encode).length = 24 * bs.length
  | [] => rfl
  | b :: bs => by
    simp only [List.flatMap_cons, List.length_append, length_flatMap_branch bs, Branch.encode,
      Bytes.length_u64, List.length_cons]
    omega

theorem length_encodeIdPairs (ids : List (UInt64 × UInt64)) :
    (encodeIdPairs ids).length = 8 + 16 * ids.length := by
  have hpairs : ∀ l : List (UInt64 × UInt64),
      (l.flatMap fun p => Bytes.u64 p.1 ++ Bytes.u64 p.2).length = 16 * l.length := by
    intro l
    simp [List.length_flatMap, List.map_const', Nat.mul_comm]
  rw [encodeIdPairs, List.length_append, hpairs, Bytes.length_u64]

/-! ### Numbers of entries -/

/-- A field that is absent when there is nothing to store is long enough for
what it stores. -/
theorem le_length_whenSelected {n : Nat} {present : Bool} {bs : Bytes}
    (hpresent : present = true → n ≤ bs.length) (habsent : present = false → n = 0) :
    n ≤ (Bytes.whenSelected present bs).length := by
  cases present with
  | true => exact hpresent rfl
  | false => exact Nat.le_of_eq (habsent rfl)

theorem Sample.countsFit_of_length {a : Attr} {s : Sample} (hs : s.WellFormed a)
    (hlen : s.encode.length < UInt64.size) : s.CountsFit := by
  have hvalues : 8 * s.read.values.length ≤
      (Bytes.whenSelected (s.has .read) (s.read.encode s.readFormat)).length := by
    have hread := hs.read
    refine le_length_whenSelected (fun h => ?_) fun h => ?_
    · rw [h, if_pos rfl] at hread
      exact ReadValues.le_length_encode hread
    · rw [h, if_neg Bool.false_ne_true] at hread
      rw [hread]
      rfl
  have hcallchain : 8 * s.callchain.length ≤ (Bytes.whenSelected (s.has .callchain)
      (Bytes.u64 (UInt64.ofNat s.callchain.length) ++ Bytes.u64s s.callchain)).length := by
    refine le_length_whenSelected (fun _ => ?_) fun h => by rw [hs.callchain h]; rfl
    rw [List.length_append, Bytes.length_u64s]
    exact Nat.le_add_left _ _
  have hbranches : 24 * s.branchStack.length ≤ (Bytes.whenSelected (s.has .branchStack)
      (Bytes.u64 (UInt64.ofNat s.branchStack.length) ++
        s.branchStack.flatMap Branch.encode)).length := by
    refine le_length_whenSelected (fun _ => ?_) fun h => by rw [hs.branchStack h]; rfl
    rw [List.length_append, length_flatMap_branch]
    exact Nat.le_add_left _ _
  have hstack : s.userStack.data.length ≤
      (Bytes.whenSelected (s.has .stackUser) s.userStack.encode).length := by
    refine le_length_whenSelected (fun _ => ?_) fun h => by rw [hs.stackData h]; rfl
    cases hdata : s.userStack.data with
    | nil => exact Nat.zero_le _
    | cons b rest =>
      simp only [UserStack.encode, hdata, List.isEmpty_cons, Bool.not_false, Bytes.whenSelected,
        if_true, List.length_append]
      omega
  simp only [encode, List.length_append] at hlen
  exact ⟨by omega, by omega, by omega, by omega⟩

/-- The numbers of entries are words where the length of the record is one. -/
theorem Record.countsFit_of_length {a : Attr} {r : Record} (hr : r.WellFormed a)
    (hlen : r.encode.length < UInt64.size) : r.CountsFit := by
  rw [length_encode] at hlen
  have hbody : r.body.length < UInt64.size := by omega
  cases r with
  | read r =>
    have hvalues := ReadValues.le_length_encode hr.shaped.1
    simp only [body, ReadRecord.encode, List.length_append] at hbody
    show r.values.values.length < UInt64.size
    omega
  | sample r => exact Sample.countsFit_of_length hr.shaped hbody
  | eventIds ids =>
    rw [body, length_encodeIdPairs] at hbody
    show ids.length * 2 < UInt64.size
    omega
  | _ => exact trivial

end Profiler
