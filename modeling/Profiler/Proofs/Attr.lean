/-
# Bits of attrs

The switches of an attr and the fields of a sample are bits of a word, each one
of its own: what is done to some of them leaves the others as they were.

Key theorems: `SampleMask.has_or`, `SampleMask.has_clear`, `Attr.has_set`,
`Attr.has_set_eq_ite`, `Attr.has_setPreciseIp`, `Attr.flags_set_and`.
-/
import Mathlib.Logic.Basic
import Profiler.Attr

namespace Profiler

theorem UInt64.or_and_distrib (x y n : UInt64) : (x ||| y) &&& n = (x &&& n) ||| (y &&& n) := by
  apply UInt64.toBitVec_inj.mp
  ext i
  simp [Bool.and_or_distrib_right]

theorem UInt64.not_and_of_and_eq_zero {x n : UInt64} (h : x &&& n = 0) : ~~~x &&& n = n := by
  have hbits : x.toBitVec &&& n.toBitVec = 0#64 := congrArg UInt64.toBitVec h
  apply UInt64.toBitVec_inj.mp
  ext i hi
  have hbit : (x.toBitVec[i] && n.toBitVec[i]) = false := by
    rw [← BitVec.getElem_and, hbits, BitVec.getElem_zero]
  rw [UInt64.toBitVec_and, UInt64.toBitVec_not, BitVec.getElem_and, BitVec.getElem_not]
  cases hx : x.toBitVec[i] with
  | false => rw [Bool.not_false, Bool.true_and]
  | true =>
    rw [hx, Bool.true_and] at hbit
    rw [hbit, Bool.and_false]

/-! ### Sample fields -/

namespace SampleMask

theorem has_or (m n : SampleMask) (f : SampleField) :
    SampleMask.has (m ||| n) f = (m.has f || n.has f) := by
  rw [has, UInt64.or_and_distrib, Bool.eq_iff_iff]
  simp only [has, bne_iff_ne, ne_eq, UInt64.or_eq_zero_iff, Bool.or_eq_true]
  exact not_and_or

theorem has_clear (m : SampleMask) {f g : SampleField} (h : f ≠ g) :
    SampleMask.has (m &&& ~~~g.mask) f = m.has f := by
  have hmask : ~~~g.mask &&& f.mask = f.mask := by
    cases f <;> cases g <;> first | exact absurd rfl h | decide
  rw [has, has, UInt64.and_assoc, hmask]

theorem has_clear_self (m : SampleMask) (f : SampleField) :
    SampleMask.has (m &&& ~~~f.mask) f = false := by
  have hmask : ~~~f.mask &&& f.mask = 0 := by cases f <;> decide
  rw [has, UInt64.and_assoc, hmask, UInt64.and_zero]
  rfl

theorem has_mask (f g : SampleField) : SampleMask.has f.mask g = decide (f = g) := by
  cases f <;> cases g <;> decide

/-- A union has the fields of each of its parts. -/
theorem has_foldl_or {α : Type} (sampleType : α → SampleMask) {f : SampleField} :
    ∀ (xs : List α) (m : SampleMask), (m.has f ∨ ∃ x ∈ xs, (sampleType x).has f) →
      SampleMask.has (xs.foldl (fun acc x => acc ||| sampleType x) m) f
  | [], m, h => h.resolve_right fun ⟨_, hx, _⟩ => absurd hx List.not_mem_nil
  | x :: xs, m, h => by
    refine has_foldl_or sampleType xs _ ?_
    rw [has_or, Bool.or_eq_true]
    rcases h with h | ⟨y, hy, hhas⟩
    · exact .inl (.inl h)
    · rcases List.mem_cons.mp hy with rfl | hy
      · exact .inl (.inr hhas)
      · exact .inr ⟨y, hy, hhas⟩

end SampleMask

/-! ### The switches of an attr -/

namespace Attr

theorem replaced_and {x kept new n : UInt64} (hkept : kept &&& n = n) (hnew : new &&& n = 0) :
    ((x &&& kept) ||| new) &&& n = x &&& n := by
  rw [UInt64.or_and_distrib, UInt64.and_assoc, hkept, hnew, UInt64.or_zero]

theorem has_set_of_ne (a : Attr) {f g : AttrFlag} (on : Bool) (h : f ≠ g) :
    (a.set f on).has g = a.has g := by
  have hmask : f.mask &&& g.mask = 0 ∧ ~~~f.mask &&& g.mask = g.mask := by
    cases f <;> cases g <;> first | exact absurd rfl h | decide
  refine congrArg (· != 0) ?_
  cases on with
  | true =>
    show (a.flags ||| f.mask) &&& g.mask = _
    rw [UInt64.or_and_distrib, hmask.1, UInt64.or_zero]
  | false =>
    show (a.flags &&& ~~~f.mask) &&& g.mask = _
    rw [UInt64.and_assoc, hmask.2]

theorem has_set_self (a : Attr) (f : AttrFlag) : (a.set f true).has f = true := by
  have habsorbed : (a.flags ||| f.mask) &&& f.mask = f.mask := by
    apply UInt64.toBitVec_inj.mp
    ext i
    simpa using fun h => .inr h
  show ((a.flags ||| f.mask) &&& f.mask != 0) = true
  rw [habsorbed]
  cases f <;> decide

theorem has_set_self_false (a : Attr) (f : AttrFlag) : (a.set f false).has f = false := by
  have hmask : ~~~f.mask &&& f.mask = 0 := by cases f <;> decide
  show ((a.flags &&& ~~~f.mask) &&& f.mask != 0) = false
  rw [UInt64.and_assoc, hmask, UInt64.and_zero]
  rfl

theorem has_set_eq_ite (a : Attr) (f g : AttrFlag) (on : Bool) :
    (a.set f on).has g = if f = g then on else a.has g := by
  by_cases hfg : f = g
  · rw [if_pos hfg, ← hfg]
    cases on with
    | true => exact a.has_set_self f
    | false => exact a.has_set_self_false f
  · rw [if_neg hfg, a.has_set_of_ne on hfg]

theorem flags_set_and (a : Attr) {f : AttrFlag} (on : Bool) {n : UInt64} (h : f.mask &&& n = 0) :
    (a.set f on).flags &&& n = a.flags &&& n := by
  cases on with
  | true =>
    show (a.flags ||| f.mask) &&& n = _
    rw [UInt64.or_and_distrib, h, UInt64.or_zero]
  | false =>
    show (a.flags &&& ~~~f.mask) &&& n = _
    rw [UInt64.and_assoc, UInt64.not_and_of_and_eq_zero h]

/-- A switch that is on stays on when switches are turned on, and when others
are turned off. -/
theorem has_set {a : Attr} {f g : AttrFlag} {on : Bool} (ha : a.has g = true)
    (h : f = g → on = true) : (a.set f on).has g = true := by
  by_cases hfg : f = g
  · rw [h hfg, hfg, has_set_self]
  · rw [a.has_set_of_ne on hfg, ha]

theorem has_setPreciseIp (a : Attr) (level : UInt8) (f : AttrFlag) :
    (a.setPreciseIp level).has f = a.has f := by
  have hmask : ~~~precisionMask &&& f.mask = f.mask ∧ precisionMask &&& f.mask = 0 := by
    cases f <;> decide
  refine congrArg (· != 0) ?_
  exact replaced_and hmask.1 (by rw [UInt64.and_assoc, hmask.2, UInt64.and_zero])

theorem flags_setPreciseIp_and (a : Attr) (level : UInt8) {n : UInt64}
    (h : precisionMask &&& n = 0) : (a.setPreciseIp level).flags &&& n = a.flags &&& n :=
  replaced_and (UInt64.not_and_of_and_eq_zero h) (by rw [UInt64.and_assoc, h, UInt64.and_zero])

theorem preciseIp_setPreciseIp (a : Attr) {level : UInt8} (h : level ≤ 3) :
    (a.setPreciseIp level).preciseIp = level := by
  have hcleared : (a.flags &&& ~~~precisionMask) &&& precisionMask = 0 := by
    rw [UInt64.and_assoc, show ~~~precisionMask &&& precisionMask = 0 by decide, UInt64.and_zero]
  have hlevels : level = 0 ∨ level = 1 ∨ level = 2 ∨ level = 3 := by
    rw [UInt8.le_iff_toNat_le] at h
    simp only [← UInt8.toNat_inj, UInt8.reduceToNat] at h ⊢
    omega
  unfold preciseIp setPreciseIp
  simp only [UInt64.or_and_distrib, hcleared, UInt64.zero_or]
  rcases hlevels with rfl | rfl | rfl | rfl <;> decide

theorem has_setSampleFreq (a : Attr) (freq : UInt64) :
    (a.setSampleFreq freq).has .sampleIdAll = a.has .sampleIdAll :=
  a.has_set_of_ne true nofun

theorem has_setSamplePeriod (a : Attr) (period : UInt64) :
    (a.setSamplePeriod period).has .sampleIdAll = a.has .sampleIdAll :=
  a.has_set_of_ne false nofun

theorem has_addSampleFields (a : Attr) (fs : List SampleField) (f : AttrFlag) :
    (a.addSampleFields fs).has f = a.has f := rfl

end Attr

end Profiler
