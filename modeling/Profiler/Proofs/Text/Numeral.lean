/-
# Numbers that are read back

A number that is printed in digits, with any zeros in front, is read back
(`Numeral.unsigned?_printed`). There is nothing but digits in it: no sign, no
comma and no white space (`Numeral.not_mem_printed`,
`Numeral.isWord_printed`), so that it can be found in what it stands in.

Key definitions: `Numeral.printed`.
Key theorems: `Numeral.digits?_toDigits`, `Numeral.unsigned?_printed`,
`Numeral.not_mem_printed`, `Numeral.isWord_printed`.
-/
import Mathlib.Data.List.Induction
import Mathlib.Tactic.SplitIfs
import Profiler.Proofs.Text.Words
import Profiler.Text.Numeral

namespace Profiler
namespace Numeral

variable {radix n : Nat} {c : Char} {cs : List Char}

/-- A number in digits, with zeros in front. -/
def printed (radix zeros n : Nat) : List Char :=
  List.replicate zeros '0' ++ Nat.toDigits radix n

theorem printed_ne_nil (radix zeros n : Nat) : printed radix zeros n ≠ [] :=
  List.append_ne_nil_of_right_ne_nil _ Nat.toDigits_ne_nil

theorem digit?_digitChar {d : Nat} (hradix : radix ≤ 16) (hd : d < radix) :
    digit? radix d.digitChar = some d := by
  have hvalue : ∀ d < 16, Bytes.hexValue? d.digitChar = some d := by decide
  rw [digit?, hvalue d (Nat.lt_of_lt_of_le hd hradix)]
  exact if_pos hd

theorem digits?_concat (radix : Nat) (cs : List Char) (c : Char) : digits? radix (cs ++ [c]) =
    (digits? radix cs).bind fun acc => (digit? radix c).map (acc * radix + ·) := by
  simp only [digits?, List.foldlM_append, List.foldlM_cons, List.foldlM_nil, bind_pure]
  rfl

theorem digits?_replicate_append (hradix : 0 < radix) (zeros : Nat) (cs : List Char) :
    digits? radix (List.replicate zeros '0' ++ cs) = digits? radix cs := by
  induction zeros with
  | zero => rfl
  | succ zeros ih =>
    have hzero : digit? radix '0' = some 0 := if_pos hradix
    rw [← ih, List.replicate_succ, List.cons_append, digits?, List.foldlM_cons, hzero, digits?]
    simp

theorem digits?_toDigits (hradix : 1 < radix) (hradix' : radix ≤ 16) (n : Nat) :
    digits? radix (Nat.toDigits radix n) = some n := by
  induction n using Nat.strongRecOn with
  | ind n ih =>
    rw [Nat.toDigits_eq_if hradix]
    split
    · next hn => rw [← List.nil_append [_], digits?_concat, digit?_digitChar hradix' hn]; simp [digits?]
    · next hn =>
      have hdiv : n / radix < n := Nat.div_lt_self (by omega) hradix
      have hmod : n % radix < radix := Nat.mod_lt n (by omega)
      rw [digits?_concat, ih _ hdiv, digit?_digitChar hradix' hmod]
      exact congrArg some (Nat.div_add_mod' n radix)

theorem isSome_digit?_of_mem (h : (digits? radix cs).isSome) (hc : c ∈ cs) :
    (digit? radix c).isSome := by
  induction cs using List.reverseRecOn with
  | nil => exact absurd hc List.not_mem_nil
  | append_singleton cs last ih =>
    rw [digits?_concat] at h
    obtain ⟨v, hv⟩ := Option.isSome_iff_exists.mp h
    obtain ⟨acc, hacc, hlast⟩ := Option.bind_eq_some_iff.mp hv
    rcases List.mem_append.mp hc with hc | hc
    · exact ih (Option.isSome_iff_exists.mpr ⟨acc, hacc⟩) hc
    · obtain ⟨d, hd, -⟩ := Option.map_eq_some_iff.mp hlast
      rw [List.mem_singleton.mp hc, hd]
      rfl

theorem isBlank_of_digit? (h : (digit? radix c).isSome) : isBlank c = false := by
  have hle : ∀ a b : Char, a ≤ b ↔ a.toNat ≤ b.toNat := fun a b =>
    Char.le_def.trans UInt32.le_iff_toNat_le
  have hrange : 48 ≤ c.toNat ∧ c.toNat ≤ 102 := by
    rw [digit?, Bytes.hexValue?] at h
    simp only [hle, show '0'.toNat = 48 from rfl, show '9'.toNat = 57 from rfl,
      show 'a'.toNat = 97 from rfl, show 'f'.toNat = 102 from rfl, show 'A'.toNat = 65 from rfl,
      show 'F'.toNat = 70 from rfl] at h
    split at h
    · next heq => split_ifs at heq <;> omega
    · cases h
  rw [isBlank]
  simp
  omega

section Printed

variable (hradix : 1 < radix) (hradix' : radix ≤ 16)
include hradix hradix'

theorem digits?_printed (zeros n : Nat) : digits? radix (printed radix zeros n) = some n := by
  rw [printed, digits?_replicate_append (Nat.zero_lt_of_lt hradix)]
  exact digits?_toDigits hradix hradix' n

theorem isSome_digit?_of_mem_printed {zeros : Nat} (hc : c ∈ printed radix zeros n) :
    (digit? radix c).isSome :=
  isSome_digit?_of_mem (by rw [digits?_printed hradix hradix']; rfl) hc

theorem not_mem_printed (hc : digit? radix c = none) (zeros n : Nat) :
    c ∉ printed radix zeros n := by
  intro hmem
  have hsome := isSome_digit?_of_mem_printed hradix hradix' hmem
  rw [hc] at hsome
  cases hsome

theorem isWord_printed (zeros n : Nat) : Text.IsWord (printed radix zeros n) where
  ne_nil := printed_ne_nil radix zeros n
  blank _ hc := isBlank_of_digit? (isSome_digit?_of_mem_printed hradix hradix' hc)

/-- **A number that is printed is read back**, whatever zeros are in front. -/
theorem unsigned?_printed {bound : Nat} (hn : n < bound) (zeros : Nat) :
    unsigned? radix bound (printed radix zeros n) = some n := by
  have hplus := not_mem_printed hradix hradix' (c := '+') rfl zeros n
  have hne : ¬ (printed radix zeros n).isEmpty = true :=
    mt List.isEmpty_iff.mp (printed_ne_nil radix zeros n)
  unfold unsigned?
  split
  · next heq => exact absurd (heq ▸ List.mem_cons_self) hplus
  · dsimp only
    rw [if_neg hne, digits?_printed hradix hradix']
    exact if_pos hn

end Printed

end Numeral
end Profiler
