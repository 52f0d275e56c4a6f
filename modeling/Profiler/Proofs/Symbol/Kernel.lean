/-
# The kernel's functions

The table of the kernel's functions is read from a text in any order, which may
give several names to one address. A symbol without a length goes up to the next
one, so that nothing is left uncovered between the first symbol and the greatest
address: the symbol of an address is the one of the greatest address at or below
it (`SymbolTable.find?_fillLengths`). Sorting is stable and only the first symbol
of an address is kept, so that it has the name that comes first in the text
(`SymbolTable.exists_mem_ofKallsyms_iff`).

Key definitions: `SymbolTable.Names`, `SymbolTable.NamesFirst`, `SymbolTable.Nearest`.
Key theorems: `SymbolTable.ofKallsymsLine?_eq_some_iff`,
`SymbolTable.find?_fillLengths`, `SymbolTable.find?_firstOfEach`,
`SymbolTable.exists_mem_ofKallsyms_iff`, `SymbolTable.find?_ofKallsyms`.
-/
import Profiler.Proofs.Symbol.Table

namespace Profiler
namespace SymbolTable

variable {t : SymbolTable} {symbols : List Symbol} {a : UInt64}

/-! ### Lines -/

/-- A line gives a name to an address: it begins with a hexadecimal number other
than zero, the letter of a function and the name. -/
def Names (line : String) (addr : UInt64) (name : String) : Prop :=
  ∃ digits kind rest, Text.words line = digits :: kind :: name :: rest ∧
    Numeral.hex64? digits = some addr ∧ addr ≠ 0 ∧ kind ∈ ["t", "T", "w", "W"]

/-- The first line that gives a name to an address gives this one. -/
def NamesFirst (lines : List String) (addr : UInt64) (name : String) : Prop :=
  ∃ before line after, lines = before ++ line :: after ∧ Names line addr name ∧
    ∀ earlier ∈ before, ∀ name', ¬ Names earlier addr name'

/-- The name that is nearest to an address in a text: of all that lie at or below
it, it has the greatest address, and of those with that one it comes first. -/
structure Nearest (lines : List String) (a addr : UInt64) (name : String) : Prop where
  below : addr ≤ a
  greatest : ∀ line ∈ lines, ∀ addr' name', Names line addr' name' → addr' ≤ a → addr' ≤ addr
  first : NamesFirst lines addr name

theorem isTextKind_iff (kind : String) :
    isTextKind kind = true ↔ kind ∈ ["t", "T", "w", "W"] := by
  simp [isTextKind, or_assoc]

/-- A line's symbol is what it names, without a length. -/
theorem ofKallsymsLine?_eq_some_iff {line : String} {s : Symbol} :
    ofKallsymsLine? line = some s ↔ s.len = 0 ∧ Names line s.addr s.name := by
  constructor
  · intro h
    unfold ofKallsymsLine? at h
    split at h
    · next digits kind name rest hwords =>
      split at h
      · next addr hdigits =>
        split at h
        · next hok =>
          cases h
          exact ⟨rfl, digits, kind, rest, hwords, hdigits, hok.1, (isTextKind_iff kind).mp hok.2⟩
        · cases h
      · cases h
    · cases h
  · obtain ⟨addr, len, name⟩ := s
    rintro ⟨rfl, digits, kind, rest, hwords, hdigits, hne, hkind⟩
    simp only [ofKallsymsLine?, hwords, hdigits]
    exact if_pos ⟨hne, (isTextKind_iff kind).mpr hkind⟩

theorem any_addr_ofKallsymsLine?_iff {line : String} {addr : UInt64} :
    (ofKallsymsLine? line).any (·.addr = addr) = true ↔ ∃ name, Names line addr name := by
  rw [Option.any_eq_true]
  constructor
  · rintro ⟨s, hs, haddr⟩
    obtain rfl := of_decide_eq_true haddr
    exact ⟨s.name, (ofKallsymsLine?_eq_some_iff.mp hs).2⟩
  · rintro ⟨name, hline⟩
    exact ⟨⟨addr, 0, name⟩, ofKallsymsLine?_eq_some_iff.mpr ⟨rfl, hline⟩, decide_eq_true rfl⟩

/-! ### Filled lengths -/

theorem covers_of_lt_stop {s : Symbol} {stop : UInt64} (ha : s.addr ≤ a) (hstop : a < stop) :
    ({ s with len := if s.addr ≤ stop then stop - s.addr else 0 } : Symbol).covers a = true := by
  have hle : s.addr ≤ stop := UInt64.le_of_lt (UInt64.lt_of_le_of_lt ha hstop)
  have hlt : a - s.addr < stop - s.addr := by
    rw [UInt64.lt_iff_toNat_lt, UInt64.toNat_sub_of_le _ _ ha, UInt64.toNat_sub_of_le _ _ hle]
    exact Nat.sub_lt_sub_right (UInt64.le_iff_toNat_le.mp ha) (UInt64.lt_iff_toNat_lt.mp hstop)
  have hmax : stop - s.addr ≤ max (stop - s.addr) 1 := by
    show stop - s.addr ≤ if stop - s.addr ≤ 1 then 1 else stop - s.addr
    split
    · assumption
    · exact UInt64.le_rfl
  rw [if_pos hle]
  exact Bool.and_eq_true_iff.mpr
    ⟨decide_eq_true ha, decide_eq_true (UInt64.lt_of_lt_of_le hlt hmax)⟩

/-- Where no symbol has a length of its own, the last one that begins at or below
an address covers it. -/
theorem covers_of_mem_fillLengths (h : t.Ascending) (hlen : ∀ s ∈ t, s.len = 0)
    (ha : a < lastAddress) {s : Symbol} (hs : s ∈ fillLengths t) (hsa : s.addr ≤ a)
    (hmax : ∀ s' ∈ fillLengths t, s'.addr ≤ a → s'.addr ≤ s.addr) : s.covers a = true := by
  induction t with
  | nil => exact absurd hs List.not_mem_nil
  | cons first rest ih =>
    obtain ⟨hfirst, hrest⟩ := List.pairwise_cons.mp h
    have hlen₀ : first.len = 0 := hlen first List.mem_cons_self
    rcases List.mem_cons.mp hs with rfl | hs
    · simp only [hlen₀, if_true]
      cases rest with
      | nil => exact covers_of_lt_stop hsa ha
      | cons next rest =>
        refine covers_of_lt_stop hsa (UInt64.not_le.mp fun hnext => ?_)
        have hback := hmax _ (List.mem_cons_of_mem _ List.mem_cons_self) hnext
        exact UInt64.not_le.mpr (hfirst next List.mem_cons_self) hback
    · exact ih hrest (fun s' hs' => hlen s' (List.mem_cons_of_mem _ hs')) hs
        fun s' hs' => hmax s' (List.mem_cons_of_mem _ hs')

/-- Below the greatest address only the addresses of the symbols decide what is
found. -/
theorem find?_fillLengths (h : t.Ascending) (hlen : ∀ s ∈ t, s.len = 0) (ha : a < lastAddress) :
    (fillLengths t).find? a = (fillLengths t).below? a := by
  show ((fillLengths t).below? a).filter (·.covers a) = _
  cases hbelow : (fillLengths t).below? a with
  | none => rfl
  | some s =>
    obtain ⟨hs, hsa, hmax⟩ := (below?_eq_some_iff h.fillLengths).mp hbelow
    rw [Option.filter_some, if_pos (covers_of_mem_fillLengths h hlen ha hs hsa hmax)]

theorem exists_mem_fillLengths_iff {addr : UInt64} {name : String} :
    (∃ s ∈ fillLengths t, s.addr = addr ∧ s.name = name) ↔
      ∃ s ∈ t, s.addr = addr ∧ s.name = name := by
  have hmem : ∀ t : SymbolTable, (∃ s ∈ t, s.addr = addr ∧ s.name = name) ↔
      (addr, name) ∈ t.map fun s => (s.addr, s.name) := fun t => by
    simp only [List.mem_map, Prod.mk.injEq]
  rw [hmem, map_fillLengths, ← hmem]

/-! ### The first symbol of an address -/

/-- The symbols in order of address, without those that come later of one address. -/
def firstOfEach (symbols : List Symbol) : SymbolTable :=
  dropSameAddress (symbols.mergeSort fun s s' => s.addr ≤ s'.addr)

theorem addr_le_trans (s s' s'' : Symbol) (h : decide (s.addr ≤ s'.addr) = true)
    (h' : decide (s'.addr ≤ s''.addr) = true) : decide (s.addr ≤ s''.addr) = true :=
  decide_eq_true (UInt64.le_trans (of_decide_eq_true h) (of_decide_eq_true h'))

theorem addr_le_total (s s' : Symbol) :
    (decide (s.addr ≤ s'.addr) || decide (s'.addr ≤ s.addr)) = true := by
  simpa using UInt64.le_total s.addr s'.addr

theorem ascending_firstOfEach (symbols : List Symbol) : (firstOfEach symbols).Ascending := by
  have hsorted := List.pairwise_mergeSort addr_le_trans addr_le_total symbols
  exact ascending_dropSameAddress (hsorted.imp of_decide_eq_true)

/-- Sorting is stable, and repetitions are dropped behind the first symbol. -/
theorem find?_firstOfEach (symbols : List Symbol) (addr : UInt64) :
    List.find? (·.addr = addr) (firstOfEach symbols) = symbols.find? (·.addr = addr) := by
  have hkey : ∀ l : List Symbol, l.find? (·.addr = addr) =
      l.find? (·.addr.toNat = addr.toNat) := fun l => by
    simp only [UInt64.toNat_inj]
  have hequal : ∀ s s' : Symbol, decide (s.addr = addr) = true → decide (s'.addr = addr) = true →
      decide (s.addr ≤ s'.addr) = true := by
    intro s s' hs hs'
    rw [of_decide_eq_true hs, of_decide_eq_true hs']
    exact decide_eq_true UInt64.le_rfl
  rw [hkey, firstOfEach, dropSameAddress, find?_eraseRepsBy same_addr_iff, ← hkey,
    ← List.head?_filter, filter_mergeSort addr_le_trans addr_le_total hequal, List.head?_filter]

theorem mem_firstOfEach_iff {s : Symbol} :
    s ∈ firstOfEach symbols ↔ symbols.find? (·.addr = s.addr) = some s := by
  rw [← find?_firstOfEach]
  constructor
  · intro hs
    cases hfound : List.find? (·.addr = s.addr) (firstOfEach symbols) with
    | none => exact absurd (decide_eq_true rfl) (List.find?_eq_none.mp hfound s hs)
    | some s' =>
      have haddr : s'.addr = s.addr := by simpa using List.find?_some hfound
      have hs' := List.mem_of_find?_eq_some hfound
      rw [(ascending_firstOfEach symbols).eq_of_addr_eq hs' hs haddr]
  · exact List.mem_of_find?_eq_some

/-! ### The table of a text -/

theorem ofKallsyms_eq (text : String) : ofKallsyms text =
    fillLengths (firstOfEach ((Text.lines text).filterMap ofKallsymsLine?)) := rfl

/-- The first symbol of an address comes from the first line that names it. -/
theorem find?_filterMap_iff {lines : List String} {addr : UInt64} {name : String} :
    (lines.filterMap ofKallsymsLine?).find? (·.addr = addr) = some ⟨addr, 0, name⟩ ↔
      NamesFirst lines addr name := by
  rw [List.find?_filterMap, Option.bind_eq_some_iff]
  constructor
  · rintro ⟨line, hline, hs⟩
    obtain ⟨-, before, after, hlines, hbefore⟩ := List.find?_eq_some_iff_append.mp hline
    refine ⟨before, line, after, hlines, (ofKallsymsLine?_eq_some_iff.mp hs).2, ?_⟩
    intro earlier hearlier name' hname'
    have hno := hbefore earlier hearlier
    rw [any_addr_ofKallsymsLine?_iff.mpr ⟨name', hname'⟩] at hno
    cases hno
  · rintro ⟨before, line, after, hlines, hline, hbefore⟩
    have hany := any_addr_ofKallsymsLine?_iff.mpr ⟨name, hline⟩
    refine ⟨line, List.find?_eq_some_iff_append.mpr ⟨hany, before, after, hlines,
      fun earlier hearlier => ?_⟩, ofKallsymsLine?_eq_some_iff.mpr ⟨rfl, hline⟩⟩
    rw [Bool.not_eq_true', Bool.eq_false_iff, Ne, any_addr_ofKallsymsLine?_iff]
    rintro ⟨name', hname'⟩
    exact hbefore earlier hearlier name' hname'

variable {text : String} {addr : UInt64} {name : String}

theorem len_eq_zero_of_mem_firstOfEach {s : Symbol}
    (hs : s ∈ firstOfEach ((Text.lines text).filterMap ofKallsymsLine?)) : s.len = 0 := by
  obtain ⟨line, -, hline⟩ :=
    List.mem_filterMap.mp (List.mem_of_find?_eq_some (mem_firstOfEach_iff.mp hs))
  exact (ofKallsymsLine?_eq_some_iff.mp hline).1

theorem exists_mem_ofKallsyms_iff : (∃ s ∈ ofKallsyms text, s.addr = addr ∧ s.name = name) ↔
    NamesFirst (Text.lines text) addr name := by
  rw [ofKallsyms_eq, exists_mem_fillLengths_iff, ← find?_filterMap_iff]
  constructor
  · rintro ⟨s, hs, rfl, rfl⟩
    have hlen := len_eq_zero_of_mem_firstOfEach hs
    rw [mem_firstOfEach_iff.mp hs, ← hlen]
  · intro hfirst
    exact ⟨⟨addr, 0, name⟩, mem_firstOfEach_iff.mpr hfirst, rfl, rfl⟩

theorem exists_mem_ofKallsyms_of_names {line : String} (hline : line ∈ Text.lines text)
    (h : Names line addr name) : ∃ s ∈ ofKallsyms text, s.addr = addr := by
  have hmem : ⟨addr, 0, name⟩ ∈ (Text.lines text).filterMap ofKallsymsLine? :=
    List.mem_filterMap.mpr ⟨line, hline, ofKallsymsLine?_eq_some_iff.mpr ⟨rfl, h⟩⟩
  have hsome : (((Text.lines text).filterMap ofKallsymsLine?).find? (·.addr = addr)).isSome :=
    List.find?_isSome.mpr ⟨_, hmem, decide_eq_true rfl⟩
  obtain ⟨s, hs⟩ := Option.isSome_iff_exists.mp hsome
  have haddr : s.addr = addr := by simpa using List.find?_some hs
  have hkept : s ∈ firstOfEach ((Text.lines text).filterMap ofKallsymsLine?) :=
    mem_firstOfEach_iff.mpr (haddr ▸ hs)
  obtain ⟨s', hs', haddr', -⟩ := exists_mem_fillLengths_iff.mpr ⟨s, hkept, rfl, rfl⟩
  exact ⟨s', hs', haddr'.trans haddr⟩

/-- **The kernel's function at an address.** For any text the table is strictly
ascending, and below the greatest address the symbol that is found has the
address and the name that are nearest to the address in the text. None is found
exactly where every line of the text lies above the address. -/
theorem find?_ofKallsyms (text : String) :
    let t := ofKallsyms text
    t.Pairwise (fun s s' => s.addr < s'.addr) ∧ ∀ a, a < lastAddress →
      (∀ s, t.find? a = some s → Nearest (Text.lines text) a s.addr s.name) ∧
      (t.find? a = none ↔
        ∀ line ∈ Text.lines text, ∀ addr name, Names line addr name → a < addr) := by
  intro t
  have hkept := ascending_firstOfEach ((Text.lines text).filterMap ofKallsymsLine?)
  have h : t.Ascending := hkept.fillLengths
  refine ⟨h, fun a ha => ?_⟩
  have hfind : t.find? a = t.below? a :=
    find?_fillLengths hkept (fun s hs => len_eq_zero_of_mem_firstOfEach hs) ha
  rw [hfind]
  refine ⟨fun s hs => ?_, ?_⟩
  · obtain ⟨hmem, hsa, hmax⟩ := (below?_eq_some_iff h).mp hs
    refine ⟨hsa, fun line hline addr name hname hle => ?_,
      exists_mem_ofKallsyms_iff.mp ⟨s, hmem, rfl, rfl⟩⟩
    obtain ⟨s', hs', rfl⟩ := exists_mem_ofKallsyms_of_names hline hname
    exact hmax s' hs' hle
  · rw [below?_eq_none_iff h]
    constructor
    · intro habove line hline addr name hname
      obtain ⟨s, hs, rfl⟩ := exists_mem_ofKallsyms_of_names hline hname
      exact habove s hs
    · intro habove s hs
      obtain ⟨before, line, after, hlines, hline, -⟩ :=
        exists_mem_ofKallsyms_iff.mp ⟨s, hs, rfl, rfl⟩
      refine habove line ?_ s.addr s.name hline
      rw [hlines]
      exact List.mem_append_right before List.mem_cons_self

/-- Lines in no order and two names of one address: just below the next symbol it
is the first of them. -/
theorem find?_ofKallsyms_unordered :
    let text := "2000 t start\n1000 T main [core]\n1000 t alias\n3000 D data\n0 T hidden\n"
    0x1fff < lastAddress ∧ (ofKallsyms text).find? 0x1fff = some ⟨0x1000, 0x1000, "main"⟩ ∧
      Nearest (Text.lines text) 0x1fff 0x1000 "main" := by
  intro text
  have hsymbols : (Text.lines text).filterMap ofKallsymsLine? =
      [⟨0x2000, 0, "start"⟩, ⟨0x1000, 0, "main"⟩, ⟨0x1000, 0, "alias"⟩] := by decide
  have hsorted : ([⟨0x2000, 0, "start"⟩, ⟨0x1000, 0, "main"⟩, ⟨0x1000, 0, "alias"⟩] :
      List Symbol).mergeSort (fun s s' => s.addr ≤ s'.addr) =
      [⟨0x1000, 0, "main"⟩, ⟨0x1000, 0, "alias"⟩, ⟨0x2000, 0, "start"⟩] := by
    simp [List.mergeSort]
  have hfound : (ofKallsyms text).find? 0x1fff = some ⟨0x1000, 0x1000, "main"⟩ := by
    rw [ofKallsyms_eq, firstOfEach, hsymbols, hsorted]
    decide
  exact ⟨by decide, hfound, ((find?_ofKallsyms text).2 0x1fff (by decide)).1 _ hfound⟩

end SymbolTable
end Profiler
