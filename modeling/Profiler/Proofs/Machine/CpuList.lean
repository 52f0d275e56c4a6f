/-
# Lists of cpus

A list is written as numbers and ranges between commas, where a number may have
zeros in front and white space around it, and parts may be empty
(`CpuList.Parts`). White space at its ends is cut off, which leaves a list of the
same items (`CpuList.Parts.trim`), and each item is read as its cpus
(`CpuList.item_of_writes`). What is read are the cpus of all items, in ascending
order and each once, unless a range goes down (`CpuList.parse_of_parts`).

Key definitions: `CpuItem`, `CpuItem.Covers`, `CpuList.Writes`, `CpuList.Parts`.
Key theorems: `CpuList.mem_normalize`, `CpuList.pairwise_normalize`,
`CpuList.Parts.trim`, `CpuList.item_of_writes`, `CpuList.parse_of_parts`.
-/
import Profiler.Machine.CpuList
import Profiler.Proofs.Sorting
import Profiler.Proofs.Text.Numeral

namespace Profiler

/-- An item of a list of cpus. -/
inductive CpuItem where
  | one (cpu : UInt32)
  | range (lo hi : UInt32)

namespace CpuItem

/-- The cpu is one of the item's. -/
def Covers : CpuItem → Nat → Prop
  | one cpu, c => c = cpu.toNat
  | range lo hi, c => lo.toNat ≤ c ∧ c ≤ hi.toNat

/-- The item is no range that goes down. -/
def Ascends : CpuItem → Prop
  | one _ => True
  | range lo hi => lo ≤ hi

/-- The item's cpus; none of a range that goes down. -/
def cpus : CpuItem → List Nat
  | one cpu => [cpu.toNat]
  | range lo hi => List.range' lo.toNat (hi.toNat + 1 - lo.toNat)

theorem mem_cpus (i : CpuItem) (c : Nat) : c ∈ i.cpus ↔ i.Covers c := by
  cases i with
  | one cpu => exact List.mem_singleton
  | range lo hi =>
    rw [cpus, List.mem_range'_1, Covers]
    omega

end CpuItem

namespace CpuList

variable {n : UInt32} {i : CpuItem} {items : List CpuItem} {cs before after : List Char}
  {parts : List (List Char)}

/-! ### What is written -/

/-- A number in decimal, with zeros in front and white space around it. -/
def WritesNumber (n : UInt32) (cs : List Char) : Prop :=
  ∃ before zeros after, (∀ c ∈ before, isBlank c = true) ∧ (∀ c ∈ after, isBlank c = true) ∧
    cs = before ++ (Numeral.printed 10 zeros n.toNat ++ after)

/-- An item: a number, or two numbers around a hyphen. -/
inductive Writes : CpuItem → List Char → Prop
  | one {cpu : UInt32} {cs : List Char} (h : WritesNumber cpu cs) : Writes (.one cpu) cs
  | range {lo hi : UInt32} {a b : List Char} (hlo : WritesNumber lo a) (hhi : WritesNumber hi b) :
      Writes (.range lo hi) (a ++ '-' :: b)

/-- The parts between the commas of a list: its items in order, and empty parts. -/
inductive Parts : List CpuItem → List (List Char) → Prop
  | nil : Parts [] []
  | skip {items : List CpuItem} {parts : List (List Char)} (h : Parts items parts) :
      Parts items ([] :: parts)
  | item {i : CpuItem} {items : List CpuItem} {cs : List Char} {parts : List (List Char)}
      (hi : Writes i cs) (h : Parts items parts) : Parts (i :: items) (cs :: parts)

theorem isWord_printed (zeros n : Nat) : Text.IsWord (Numeral.printed 10 zeros n) :=
  Numeral.isWord_printed (by decide) (by decide) zeros n

theorem WritesNumber.dropWhile (h : WritesNumber n cs) : WritesNumber n (cs.dropWhile isBlank) := by
  obtain ⟨before, zeros, after, hbefore, hafter, rfl⟩ := h
  refine ⟨[], zeros, after, nofun, hafter, ?_⟩
  rw [List.dropWhile_append_of_pos hbefore, (isWord_printed _ _).dropWhile_append, List.nil_append]

theorem WritesNumber.rdropWhile (h : WritesNumber n cs) :
    WritesNumber n (cs.rdropWhile isBlank) := by
  obtain ⟨before, zeros, after, hbefore, hafter, rfl⟩ := h
  refine ⟨before, zeros, [], hbefore, nofun, ?_⟩
  rw [← List.append_assoc, Text.rdropWhile_append_of_blank hafter,
    (isWord_printed _ _).rdropWhile_append, List.append_nil]

theorem WritesNumber.trimChars (h : WritesNumber n cs) :
    ∃ zeros, Text.trimChars cs = Numeral.printed 10 zeros n.toNat := by
  obtain ⟨before, zeros, after, hbefore, hafter, rfl⟩ := h
  refine ⟨zeros, ?_⟩
  rw [Text.trimChars_append hbefore hafter]
  exact (isWord_printed zeros n.toNat).trimChars_eq

theorem WritesNumber.not_mem (h : WritesNumber n cs) {c : Char} (hc : isBlank c = false)
    (hdigit : Numeral.digit? 10 c = none) : c ∉ cs := by
  obtain ⟨before, zeros, after, hbefore, hafter, rfl⟩ := h
  have hblank : ∀ cs : List Char, (∀ c ∈ cs, isBlank c = true) → c ∉ cs := fun cs hcs hmem => by
    rw [hcs c hmem] at hc
    cases hc
  rw [List.mem_append, List.mem_append, not_or, not_or]
  exact ⟨hblank before hbefore, Numeral.not_mem_printed (by decide) (by decide) hdigit _ _,
    hblank after hafter⟩

theorem Writes.dropWhile (h : Writes i cs) : Writes i (cs.dropWhile isBlank) := by
  cases h with
  | one h => exact .one h.dropWhile
  | range hlo hhi =>
    rw [Text.dropWhile_append_cons rfl]
    exact .range hlo.dropWhile hhi

theorem Writes.rdropWhile (h : Writes i cs) : Writes i (cs.rdropWhile isBlank) := by
  cases h with
  | one h => exact .one h.rdropWhile
  | range hlo hhi =>
    rw [Text.rdropWhile_append_cons rfl]
    exact .range hlo hhi.rdropWhile

theorem Writes.ne_nil (h : Writes i cs) : cs ≠ [] := by
  cases h with
  | one h =>
    obtain ⟨before, zeros, after, -, -, rfl⟩ := h
    have hne := Numeral.printed_ne_nil 10 zeros
    simp [hne]
  | range hlo hhi => simp

theorem Writes.comma_not_mem (h : Writes i cs) : ',' ∉ cs := by
  cases h with
  | one h => exact h.not_mem rfl rfl
  | range hlo hhi =>
    rw [List.mem_append, List.mem_cons, not_or, not_or]
    exact ⟨hlo.not_mem rfl rfl, by decide, hhi.not_mem rfl rfl⟩

/-! ### The parts of a list -/

theorem Parts.dropWhile (h : Parts items (cs :: parts)) :
    Parts items (cs.dropWhile isBlank :: parts) := by
  cases h with
  | skip h => exact .skip h
  | item hi h => exact .item hi.dropWhile h

theorem Parts.rdropWhile (h : Parts items (parts ++ [cs])) :
    Parts items (parts ++ [cs.rdropWhile isBlank]) := by
  induction parts generalizing items with
  | nil =>
    cases h with
    | skip h => exact .skip h
    | item hi h => exact .item hi.rdropWhile h
  | cons first parts ih =>
    cases h with
    | skip h => exact .skip (ih h)
    | item hi h => exact .item hi (ih h)

/-- **White space at the ends of a list is no part of it.** -/
theorem Parts.trim (h : Parts items parts) (hbefore : ∀ c ∈ before, isBlank c = true)
    (hafter : ∀ c ∈ after, isBlank c = true) :
    ∃ parts', Parts items parts' ∧
      Text.trimChars (before ++ ([','].intercalate parts ++ after)) = [','].intercalate parts' := by
  rw [Text.trimChars_append hbefore hafter]
  cases parts with
  | nil => exact ⟨[], h, rfl⟩
  | cons cs parts =>
    -- white space at the front is the first part's, what is at the end the last one's
    have hfront := h.dropWhile
    have hcut := Text.dropWhile_intercalate (s := ',') rfl cs parts
    obtain hnil | ⟨init, last, heq⟩ := List.eq_nil_or_concat' (cs.dropWhile isBlank :: parts)
    · cases hnil
    · rw [heq] at hfront hcut
      refine ⟨_, hfront.rdropWhile, ?_⟩
      show (([','].intercalate (cs :: parts)).dropWhile isBlank).rdropWhile isBlank = _
      rw [hcut]
      exact Text.rdropWhile_intercalate rfl init last

theorem Parts.forall₂ (h : Parts items parts) :
    List.Forall₂ Writes items (parts.filter fun cs => !cs.isEmpty) := by
  induction h with
  | nil => exact .nil
  | skip h ih => exact ih
  | item hi h ih =>
    rw [List.filter_cons_of_pos (by simpa using hi.ne_nil)]
    exact .cons hi ih

theorem Parts.comma_not_mem (h : Parts items parts) : ∀ part ∈ parts, ',' ∉ part := by
  induction h with
  | nil => nofun
  | skip h ih => exact List.forall_mem_cons.mpr ⟨List.not_mem_nil, ih⟩
  | item hi h ih => exact List.forall_mem_cons.mpr ⟨hi.comma_not_mem, ih⟩

theorem Parts.filter_splitWhere (h : Parts items parts) :
    (splitWhere (· == ',') ([','].intercalate parts)).filter (fun cs => !cs.isEmpty) =
      parts.filter fun cs => !cs.isEmpty := by
  by_cases hne : parts = []
  · subst hne
    rfl
  · rw [splitWhere_intercalate (s := ',') rfl hne]
    exact fun part hpart c hc => beq_eq_false_iff_ne.mpr fun heq =>
      h.comma_not_mem part hpart (heq ▸ hc)

/-! ### What is read -/

theorem number?_of_writes (h : WritesNumber n cs) : number? cs = some n.toNat := by
  obtain ⟨zeros, heq⟩ := h.trimChars
  rw [number?, heq]
  exact Numeral.unsigned?_printed (by decide) (by decide) n.toNat_lt zeros

/-- **An item is read as its cpus**, unless it is a range that goes down. -/
theorem item_of_writes (h : Writes i cs) (whole : String) :
    (i.Ascends → item whole cs = .ok i.cpus) ∧
      (¬ i.Ascends → item whole cs = .error (.cpuRange (String.ofList cs))) := by
  cases h with
  | one h =>
    have hcut : Text.splitFirst? '-' cs = none := Text.splitFirst?_eq_none (h.not_mem rfl rfl)
    rw [item, hcut, number?_of_writes h]
    exact ⟨fun _ => rfl, fun hnot => absurd trivial hnot⟩
  | range hlo hhi =>
    rw [item, Text.splitFirst?_append (hlo.not_mem rfl rfl)]
    dsimp only
    rw [number?_of_writes hlo, number?_of_writes hhi]
    exact ⟨fun hle => if_pos (UInt32.le_iff_toNat_le.mp hle),
      fun hnot => if_neg (mt UInt32.le_iff_toNat_le.mpr hnot)⟩

/-- Items are read one after another, up to the first range that goes down. -/
theorem mapM_item (h : List.Forall₂ Writes items parts) (whole : String) :
    ((∀ i ∈ items, i.Ascends) → parts.mapM (item whole) = .ok (items.map CpuItem.cpus)) ∧
      ((∃ i ∈ items, ¬ i.Ascends) → ∃ i ∈ items, ¬ i.Ascends ∧ ∃ cs, Writes i cs ∧
        parts.mapM (item whole) = .error (.cpuRange (String.ofList cs))) := by
  induction h with
  | nil => exact ⟨fun _ => rfl, nofun⟩
  | @cons i cs items parts hi h ih =>
    obtain ⟨hok, herror⟩ := item_of_writes hi whole
    rw [List.mapM_cons]
    constructor
    · intro hall
      obtain ⟨hfirst, hrest⟩ := List.forall_mem_cons.mp hall
      rw [hok hfirst, ih.1 hrest]
      rfl
    · intro hsome
      by_cases hfirst : i.Ascends
      · obtain ⟨j, hj, hnot⟩ := hsome
        have hj : j ∈ items := (List.mem_cons.mp hj).resolve_left fun heq => hnot (heq ▸ hfirst)
        obtain ⟨k, hk, hnot, cs', hwrites, heq⟩ := ih.2 ⟨j, hj, hnot⟩
        refine ⟨k, List.mem_cons_of_mem _ hk, hnot, cs', hwrites, ?_⟩
        rw [hok hfirst, heq]
        rfl
      · refine ⟨i, List.mem_cons_self, hfirst, cs, hi, ?_⟩
        rw [herror hfirst]
        rfl

/-! ### In ascending order, each once -/

theorem mem_normalize {cpus : List Nat} {c : Nat} : c ∈ normalize cpus ↔ c ∈ cpus := by
  have hfind := @find?_eraseRepsBy Nat (· == ·) id (fun _ _ => beq_iff_eq)
    (cpus.mergeSort (· ≤ ·)) c
  have hmem : ∀ l : List Nat, c ∈ l ↔ (l.find? (id · = c)).isSome := by
    intro l
    rw [List.find?_isSome]
    simp
  rw [normalize, hmem, List.eraseReps, hfind, ← hmem, List.mem_mergeSort]

theorem pairwise_normalize (cpus : List Nat) : (normalize cpus).Pairwise (· < ·) := by
  have hsorted : (cpus.mergeSort (· ≤ ·)).Pairwise fun a b => id a ≤ id b :=
    (List.pairwise_mergeSort (by simp; omega) (by simp; omega) cpus).imp of_decide_eq_true
  exact @pairwise_eraseRepsBy Nat (· == ·) id (fun _ _ => beq_iff_eq) _ hsorted

/-- **A list of cpus is read as the cpus of its items**, in ascending order and each
once, whatever stands between them; a range that goes down is refused. -/
theorem parse_of_parts (items : List CpuItem) (parts : List (List Char)) (before after : List Char)
    (h : Parts items parts) (hbefore : ∀ c ∈ before, isBlank c = true)
    (hafter : ∀ c ∈ after, isBlank c = true) :
    let text := String.ofList (before ++ ([','].intercalate parts ++ after))
    ((∀ i ∈ items, i.Ascends) → ∃ cpus, parse text = .ok cpus ∧ cpus.Pairwise (· < ·) ∧
        ∀ c, c ∈ cpus ↔ ∃ i ∈ items, i.Covers c) ∧
      ((∃ i ∈ items, ¬ i.Ascends) → ∃ i ∈ items, ¬ i.Ascends ∧ ∃ cs, Writes i cs ∧
        parse text = .error (.cpuRange (String.ofList cs))) := by
  intro text
  obtain ⟨parts', h', htrim⟩ := h.trim hbefore hafter
  have hparse : parse text = (fun cpus => normalize cpus.flatten) <$>
      (parts'.filter fun cs => !cs.isEmpty).mapM
        (item (String.ofList ([','].intercalate parts'))) := by
    rw [parse, String.toList_ofList, htrim, h'.filter_splitWhere]
    rfl
  obtain ⟨hok, herror⟩ := mapM_item h'.forall₂ (String.ofList ([','].intercalate parts'))
  constructor
  · intro hall
    refine ⟨_, by rw [hparse, hok hall]; rfl, pairwise_normalize _, fun c => ?_⟩
    rw [mem_normalize, ← List.flatMap_def, List.mem_flatMap]
    simp only [CpuItem.mem_cpus]
  · intro hsome
    obtain ⟨i, hi, hnot, cs, hwrites, heq⟩ := herror hsome
    exact ⟨i, hi, hnot, cs, hwrites, by rw [hparse, heq]; rfl⟩

/-- Ranges that overlap, repeated commas and white space; and a range that goes down. -/
theorem parse_of_parts_overlapping :
    (∃ cpus, parse " 3 ,,1-4, 02,4294967294-4294967295,\n" = .ok cpus ∧
        cpus.Pairwise (· < ·) ∧ ∀ c, c ∈ cpus ↔ c ∈ [1, 2, 3, 4, 4294967294, 4294967295]) ∧
      ∃ text, parse "0,3-1" = .error (.cpuRange text) := by
  have hnumber : ∀ n : UInt32, WritesNumber n (Numeral.printed 10 0 n.toNat) := fun n =>
    ⟨[], 0, [], nofun, nofun, by simp⟩
  have hblank : ∀ {c}, isBlank c = true → ∀ d ∈ [c], isBlank d = true := fun hc =>
    List.forall_mem_singleton.mpr hc
  constructor
  · have hparts : Parts [.one 3, .range 1 4, .one 2, .range 4294967294 4294967295]
        [[' ', '3', ' '], [], ['1', '-', '4'], [' ', '0', '2'],
          "4294967294-4294967295".toList, []] :=
      .item (.one ⟨[' '], 0, [' '], hblank rfl, hblank rfl, by decide +kernel⟩) <| .skip <|
        .item (.range (hnumber 1) (hnumber 4)) <|
        .item (.one ⟨[' '], 1, [], hblank rfl, nofun, by decide +kernel⟩) <|
        .item (.range (hnumber 4294967294) (hnumber 4294967295)) <| .skip .nil
    obtain ⟨cpus, hparse, hpairwise, hmem⟩ :=
      (parse_of_parts _ _ [] ['\n'] hparts nofun (hblank rfl)).1 (by simp [CpuItem.Ascends])
    refine ⟨cpus, hparse, hpairwise, fun c => (hmem c).trans ?_⟩
    simp [CpuItem.Covers]
    omega
  · obtain ⟨-, -, -, cs, -, hparse⟩ := (parse_of_parts [.one 0, .range 3 1] _ [] []
      (.item (.one (hnumber 0)) (.item (.range (hnumber 3) (hnumber 1)) .nil)) nofun nofun).2
      ⟨.range 3 1, by simp, by simp [CpuItem.Ascends]⟩
    exact ⟨_, hparse⟩

end CpuList
end Profiler
