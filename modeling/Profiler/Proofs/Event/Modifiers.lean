/-
# What the modifiers of an event mean

The letters of a modifier may come in any order and number. Each names a level,
a side of a virtual machine, or one more step of precision, so what a modifier
means depends on which letters occur in it and on how often `p` does
(`EventSpec.withModifier_eq`). The number of `p` is kept in a byte and compared
with its bound only after the last letter: up to 255 of them more than three
are refused, and with one more the byte overflows, unless a letter before it
means nothing.

In an attr the modifiers decide five switches and the precision level, and no
other bit (`EventSpec.parseWith_modifier`).

Key definitions: `EventSpec.modifierLetters`, `EventSpec.ofModifier`,
`EventSpec.Decided`.
Key theorems: `EventSpec.Letters.push_eq`, `EventSpec.letters_eq`,
`EventSpec.withModifier_eq`, `EventSpec.has_applyTo`,
`EventSpec.parseWith_modifier`.
-/
import Mathlib.Data.List.TakeWhile
import Profiler.Event.Type
import Profiler.Proofs.Attr

namespace Profiler
namespace EventSpec

/-- The letters that mean something. -/
def modifierLetters : List Char := ['u', 'k', 'h', 'H', 'G', 'p']

/-- Whether a modifier names a privilege level. -/
abbrev NamesLevel (cs : List Char) : Prop := 'u' ∈ cs ∨ 'k' ∈ cs ∨ 'h' ∈ cs

/-- What has been named after some more letters. -/
def Letters.after (l : Letters) (cs : List Char) : Letters where
  user := l.user || decide ('u' ∈ cs)
  kernel := l.kernel || decide ('k' ∈ cs)
  hv := l.hv || decide ('h' ∈ cs)
  host := l.host || decide ('H' ∈ cs)
  guest := l.guest || decide ('G' ∈ cs)
  precision := l.precision + UInt8.ofNat (cs.count 'p')

/-- The event with a modifier whose letters all mean something. -/
def ofModifier (name : String) (t : EventType) (cs : List Char) : EventSpec where
  name := name
  eventType := t
  modifier := String.ofList cs
  excludeUser := decide (NamesLevel cs ∧ 'u' ∉ cs)
  excludeKernel := decide (NamesLevel cs ∧ 'k' ∉ cs)
  excludeHv := decide (NamesLevel cs ∧ 'h' ∉ cs)
  excludeHost := decide ('G' ∈ cs ∧ 'H' ∉ cs)
  excludeGuest := decide ('H' ∈ cs ∧ 'G' ∉ cs)
  preciseIp := UInt8.ofNat (cs.count 'p')

/-! ### The letters -/

namespace Letters

@[simp] theorem after_nil (l : Letters) : l.after [] = l := by
  simp [after]

theorem after_cons (l : Letters) (c : Char) (cs : List Char) :
    l.after (c :: cs) = (l.after [c]).after cs := by
  simp only [after, List.mem_cons, List.not_mem_nil, or_false, Bool.decide_or, Bool.or_assoc,
    List.count_cons, List.count_nil, Nat.zero_add, UInt8.ofNat_add, UInt8.add_assoc,
    UInt8.add_comm (UInt8.ofNat (cs.count 'p'))]

theorem toNat_precision_after {l : Letters} {cs : List Char}
    (h : l.precision.toNat + cs.count 'p' < UInt8.size) :
    (l.after cs).precision.toNat = l.precision.toNat + cs.count 'p' := by
  have hcount : (UInt8.ofNat (cs.count 'p')).toNat = cs.count 'p' :=
    UInt8.toNat_ofNat_of_lt' (by omega)
  rw [after, UInt8.toNat_add, hcount]
  exact Nat.mod_eq_of_lt h

/-- A letter counts if it means something and the byte holds one more. -/
theorem push_eq (name : String) (l : Letters) (c : Char) :
    l.push name c =
      if c ∈ modifierLetters then
        if l.precision.toNat + [c].count 'p' < UInt8.size then .ok (l.after [c])
        else .error .overflow
      else .error (.misuse (.modifier c name)) := by
  have hbyte : l.precision.toNat < UInt8.size := l.precision.toNat_lt
  unfold push
  split
  case h_7 hu hk hh hH hG hp =>
    have hc : c ∉ modifierLetters := by
      simp only [modifierLetters, List.mem_cons, List.not_mem_nil, or_false, not_or]
      exact ⟨hu, hk, hh, hH, hG, hp⟩
    rw [if_neg hc]
  all_goals simp [modifierLetters, after, hbyte]

end Letters

/-- The letters before the first that means nothing. -/
def known (cs : List Char) : List Char := cs.takeWhile (· ∈ modifierLetters)

/-- The letters are taken one by one, up to the first that means nothing or the
`p` that the byte has no room for. -/
theorem foldlM_push_eq (name : String) (l : Letters) (cs : List Char) :
    cs.foldlM (Letters.push name) l =
      if l.precision.toNat + (known cs).count 'p' < UInt8.size then
        match cs.find? (· ∉ modifierLetters) with
        | some c => .error (.misuse (.modifier c name))
        | none => .ok (l.after cs)
      else .error .overflow := by
  induction cs generalizing l with
  | nil =>
    have hbyte : l.precision.toNat < UInt8.size := l.precision.toNat_lt
    rw [List.foldlM_nil, List.find?_nil, Letters.after_nil, known, List.takeWhile_nil,
      List.count_nil, Nat.add_zero, if_pos hbyte]
    rfl
  | cons c rest ih =>
    rw [List.foldlM_cons, Letters.push_eq]
    by_cases hc : c ∈ modifierLetters
    · have hcount : (known (c :: rest)).count 'p' = [c].count 'p' + (known rest).count 'p' := by
        rw [known, List.takeWhile_cons_of_pos (by simpa using hc), ← List.singleton_append,
          List.count_append]
        rfl
      rw [if_pos hc, List.find?_cons_of_neg (by simpa using hc), Letters.after_cons l c rest,
        hcount, ← Nat.add_assoc]
      by_cases hroom : l.precision.toNat + [c].count 'p' < UInt8.size
      · rw [if_pos hroom, ← Letters.toNat_precision_after hroom]
        exact ih (l.after [c])
      · rw [if_neg hroom, if_neg (by omega)]
        rfl
    · have hnone : known (c :: rest) = [] := List.takeWhile_cons_of_neg (by simpa using hc)
      have hbyte : l.precision.toNat < UInt8.size := l.precision.toNat_lt
      rw [if_neg hc, List.find?_cons_of_pos (by simpa using hc), hnone, List.count_nil,
        Nat.add_zero, if_pos hbyte]
      rfl

theorem letters_eq (name : String) (cs : List Char) :
    letters name cs =
      if (known cs).count 'p' < UInt8.size then
        match cs.find? (· ∉ modifierLetters) with
        | some c => .error (.misuse (.modifier c name))
        | none => .ok (Letters.after {} cs)
      else .error .overflow := by
  have hstart := foldlM_push_eq name {} cs
  rwa [show ({} : Letters).precision.toNat = 0 from rfl, Nat.zero_add] at hstart

theorem ofModifier_eq (name : String) (t : EventType) (cs : List Char) :
    let l := Letters.after {} cs
    let leveled := l.user || l.kernel || l.hv
    ofModifier name t cs = {
      name
      eventType := t
      modifier := String.ofList cs
      excludeUser := leveled && !l.user
      excludeKernel := leveled && !l.kernel
      excludeHv := leveled && !l.hv
      excludeHost := l.guest && !l.host
      excludeGuest := l.host && !l.guest
      preciseIp := l.precision } := by
  simp [ofModifier, Letters.after, Bool.decide_and, Bool.decide_or, Bool.or_assoc]

theorem find?_eq_none_iff_known {cs : List Char} :
    cs.find? (· ∉ modifierLetters) = none ↔ ∀ c ∈ cs, c ∈ modifierLetters := by
  simp [List.find?_eq_none]

theorem known_eq {cs : List Char} (h : cs.find? (· ∉ modifierLetters) = none) : known cs = cs := by
  refine List.takeWhile_eq_self_iff.mpr fun c hc => ?_
  exact decide_eq_true (find?_eq_none_iff_known.mp h c hc)

/-- **What becomes of a modifier.** If the byte holds the number of `p` before
the first letter that means nothing, this letter is the fault, and if there is
none, a precision above 3 is. -/
theorem withModifier_eq (name : String) (t : EventType) (cs : List Char) :
    withModifier name t cs =
      if (known cs).count 'p' < UInt8.size then
        match cs.find? (· ∉ modifierLetters) with
        | some c => .error (.misuse (.modifier c name))
        | none =>
          if 3 < cs.count 'p' then .error (.misuse (.precision name))
          else .ok (ofModifier name t cs)
      else .error .overflow := by
  unfold withModifier
  rw [letters_eq]
  by_cases hroom : (known cs).count 'p' < UInt8.size
  · rw [if_pos hroom, if_pos hroom]
    cases hfind : cs.find? (· ∉ modifierLetters) with
    | some c => rfl
    | none =>
      rw [known_eq hfind] at hroom
      have hprecision : 3 < (Letters.after {} cs).precision ↔ 3 < cs.count 'p' := by
        rw [UInt8.lt_iff_toNat_lt, Letters.toNat_precision_after (by simpa using hroom)]
        simp
      rw [ofModifier_eq]
      by_cases hmany : 3 < cs.count 'p'
      · have h := hprecision.mpr hmany
        simp only [hmany, if_true]
        show (if _ then _ else _) = _
        rw [if_pos h]
        rfl
      · have h := mt hprecision.mp hmany
        simp only [hmany, if_false]
        show (if _ then _ else _) = _
        rw [if_neg h]
        rfl
  · rw [if_neg hroom, if_neg hroom]
    rfl

theorem withModifier_eq_ok_iff {name : String} {t : EventType} {cs : List Char} {e : EventSpec} :
    withModifier name t cs = .ok e ↔
      (∀ c ∈ cs, c ∈ modifierLetters) ∧ cs.count 'p' ≤ 3 ∧ e = ofModifier name t cs := by
  rw [withModifier_eq, ← find?_eq_none_iff_known]
  cases hfind : cs.find? (· ∉ modifierLetters) with
  | some c => split <;> simp
  | none =>
    rw [known_eq hfind]
    by_cases hmany : 3 < cs.count 'p'
    · simp only [if_pos hmany]
      split <;> simp [Nat.not_le.mpr hmany]
    · have hroom : cs.count 'p' < UInt8.size := Nat.lt_of_le_of_lt (Nat.not_lt.mp hmany) (by decide)
      simp [if_pos hroom, hmany, Nat.not_lt.mp hmany, eq_comm]

theorem withModifier_eq_overflow_iff {name : String} {t : EventType} {cs : List Char} :
    withModifier name t cs = .error .overflow ↔ UInt8.size ≤ (known cs).count 'p' := by
  rw [withModifier_eq, ← Nat.not_lt]
  by_cases hroom : (known cs).count 'p' < UInt8.size
  · rw [if_pos hroom]
    cases cs.find? (· ∉ modifierLetters) with
    | some c => simp [hroom]
    | none => by_cases hmany : 3 < cs.count 'p' <;> simp [hroom, hmany]
  · simp [hroom]

/-! ### The attr -/

/-- The bits of an attr that modifiers decide. -/
def decidedBits : UInt64 :=
  AttrFlag.excludeUser.mask ||| AttrFlag.excludeKernel.mask ||| AttrFlag.excludeHv.mask |||
    AttrFlag.excludeHost.mask ||| AttrFlag.excludeGuest.mask ||| Attr.precisionMask

/-- The attr `b` is `a` with the exclusions and the precision that the letters
of a modifier ask for. -/
structure Decided (cs : List Char) (a b : Attr) : Prop where
  preciseIp : b.preciseIp.toNat = cs.count 'p'
  excludeUser : b.has .excludeUser = true ↔ NamesLevel cs ∧ 'u' ∉ cs
  excludeKernel : b.has .excludeKernel = true ↔ NamesLevel cs ∧ 'k' ∉ cs
  excludeHv : b.has .excludeHv = true ↔ NamesLevel cs ∧ 'h' ∉ cs
  excludeGuest : b.has .excludeGuest = true ↔ 'H' ∈ cs ∧ 'G' ∉ cs
  excludeHost : b.has .excludeHost = true ↔ 'G' ∈ cs ∧ 'H' ∉ cs
  otherBits : b.flags &&& ~~~decidedBits = a.flags &&& ~~~decidedBits
  otherFields : { b with flags := a.flags } = a

theorem has_applyTo (e : EventSpec) (a : Attr) (f : AttrFlag) :
    (e.applyTo a).has f = match f with
      | .excludeUser => e.excludeUser
      | .excludeKernel => e.excludeKernel
      | .excludeHv => e.excludeHv
      | .excludeHost => e.excludeHost
      | .excludeGuest => e.excludeGuest
      | _ => a.has f := by
  rw [applyTo, Attr.has_setPreciseIp]
  simp only [Attr.has_set_eq_ite]
  cases f <;> rfl

theorem flags_applyTo_and (e : EventSpec) (a : Attr) :
    (e.applyTo a).flags &&& ~~~decidedBits = a.flags &&& ~~~decidedBits := by
  rw [applyTo, Attr.flags_setPreciseIp_and _ _ (by decide), Attr.flags_set_and _ _ (by decide),
    Attr.flags_set_and _ _ (by decide), Attr.flags_set_and _ _ (by decide),
    Attr.flags_set_and _ _ (by decide), Attr.flags_set_and _ _ (by decide)]

theorem preciseIp_applyTo {e : EventSpec} (h : e.preciseIp ≤ 3) (a : Attr) :
    (e.applyTo a).preciseIp = e.preciseIp := by
  rw [applyTo, Attr.preciseIp_setPreciseIp _ h]

theorem otherFields_applyTo (e : EventSpec) (a : Attr) :
    { e.applyTo a with flags := a.flags } = a := by
  cases a
  rfl

theorem decided_applyTo (name : String) (t : EventType) {cs : List Char} (h : cs.count 'p' ≤ 3)
    (a : Attr) : Decided cs a ((ofModifier name t cs).applyTo a) := by
  have hcount : (ofModifier name t cs).preciseIp.toNat = cs.count 'p' :=
    UInt8.toNat_ofNat_of_lt' (Nat.lt_of_le_of_lt h (by decide))
  have hlevel : (ofModifier name t cs).preciseIp ≤ 3 := by
    rw [UInt8.le_iff_toNat_le, hcount]
    exact h
  refine ⟨?_, ?_, ?_, ?_, ?_, ?_, flags_applyTo_and _ a, otherFields_applyTo _ a⟩
  · rw [preciseIp_applyTo hlevel, hcount]
  all_goals
    rw [has_applyTo]
    exact decide_eq_true_iff

/-! ### The text -/

theorem parseWith_append {find? : String → Option EventType} {name modifier : String}
    {t : EventType} (hname : find? name = some t) (hmodifier : ':' ∉ modifier.toList)
    (hwhole : find? (name ++ ":" ++ modifier) = none) :
    parseWith find? (name ++ ":" ++ modifier) =
      withModifier (name ++ ":" ++ modifier) t modifier.toList := by
  have htext : (name ++ ":" ++ modifier).toList = name.toList ++ ':' :: modifier.toList := by simp
  unfold parseWith
  rw [hwhole, htext, Text.splitLast?_append hmodifier]
  simp only [String.ofList_toList, hname]

/-- **What a text with modifiers asks for.** Whatever names are known, a name and
a modifier that is none of them are read exactly if each letter means something
and `p` occurs at most three times. An attr then gets what the letters say: the
precision is that number, a privilege level is excluded if another one is named
and it is not, the guest if only the host is named and the host if only the
guest is, and every other bit stays. Reading overflows exactly if a byte cannot
hold how often `p` occurs before the first letter that means nothing. -/
theorem parseWith_modifier {find? : String → Option EventType} {name modifier : String}
    {t : EventType} (hname : find? name = some t) (hmodifier : ':' ∉ modifier.toList)
    (hwhole : find? (name ++ ":" ++ modifier) = none) :
    let text := name ++ ":" ++ modifier
    let cs := modifier.toList
    ((∃ e, parseWith find? text = .ok e) ↔
      (∀ c ∈ cs, c ∈ modifierLetters) ∧ cs.count 'p' ≤ 3) ∧
    (∀ e, parseWith find? text = .ok e → ∀ a, Decided cs a (e.applyTo a)) ∧
    (parseWith find? text = .error .overflow ↔ UInt8.size ≤ (known cs).count 'p') := by
  intro text cs
  have hparse : ∀ e, parseWith find? text = .ok e ↔ (∀ c ∈ cs, c ∈ modifierLetters) ∧
      cs.count 'p' ≤ 3 ∧ e = ofModifier text t cs := fun e => by
    rw [parseWith_append hname hmodifier hwhole, withModifier_eq_ok_iff]
  refine ⟨⟨?_, ?_⟩, ?_, ?_⟩
  · rintro ⟨e, he⟩
    obtain ⟨hletters, hprecise, -⟩ := (hparse e).mp he
    exact ⟨hletters, hprecise⟩
  · rintro ⟨hletters, hprecise⟩
    exact ⟨ofModifier text t cs, (hparse _).mpr ⟨hletters, hprecise, rfl⟩⟩
  · intro e he a
    obtain ⟨-, hprecise, rfl⟩ := (hparse e).mp he
    exact decided_applyTo text t hprecise a
  · rw [parseWith_append hname hmodifier hwhole, withModifier_eq_overflow_iff]

theorem find?_eq_none_of_colon {text : String} {c : Char} {rest : List Char}
    (htext : text.toList = c :: rest) (hc : c ≠ 'r') (hcolon : ':' ∈ rest) :
    EventType.find? (fun _ _ => none) text = none := by
  have hplain : ∀ t ∈ EventType.builtins, ':' ∉ t.name.toList := by decide +kernel
  have hbuiltin : EventType.builtins.find? (·.name == text) = none := by
    refine List.find?_eq_none.mpr fun t ht heq => hplain t ht ?_
    rw [beq_iff_eq.mp heq, htext]
    exact List.mem_cons_of_mem c hcolon
  have hraw : EventType.raw? text = none := by
    unfold EventType.raw?
    split
    · next hex heq =>
      rw [htext, List.cons.injEq] at heq
      exact absurd heq.1 hc
    · rfl
  rw [EventType.find?, hbuiltin, hraw]
  cases EventType.tracepointParts? text <;> rfl

/-- Two `p` around the kernel and the host, for an attr with every bit set. -/
theorem parseWith_modifier_kernel_host :
    let find? := EventType.find? fun _ _ => none
    let text := "cpu-cycles" ++ ":" ++ "pkHp"
    let a : Attr := { flags := 0xffffffffffffffff }
    find? "cpu-cycles" = some ⟨"cpu-cycles", 0, 0⟩ ∧ ':' ∉ "pkHp".toList ∧ find? text = none ∧
      ∃ e, parseWith find? text = .ok e ∧ Decided "pkHp".toList a (e.applyTo a) := by
  intro find? text a
  have hname : find? "cpu-cycles" = some ⟨"cpu-cycles", 0, 0⟩ := by decide +kernel
  have hmodifier : ':' ∉ "pkHp".toList := by decide
  have htext : text.toList = 'c' :: "pu-cycles:pkHp".toList := by decide
  have hwhole : find? text = none := find?_eq_none_of_colon htext (by decide) (by decide)
  have hknown : ∀ c ∈ "pkHp".toList, c ∈ modifierLetters := by simp [modifierLetters]
  obtain ⟨hread, hdecided, -⟩ := parseWith_modifier hname hmodifier hwhole
  obtain ⟨e, he⟩ := hread.mpr ⟨hknown, by decide⟩
  exact ⟨hname, hmodifier, hwhole, e, he, hdecided e he a⟩

end EventSpec
end Profiler
