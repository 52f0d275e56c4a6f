/-
# Lines about mappings

A line that the kernel writes about a mapping is read back with its addresses,
its permissions and its offset. Its path is cut into words and joined again with
one blank each, so it is read back if and only if its white space is single
blanks (`MapsLine.ofLine?_text`).

Key definitions: `MapsLine`, `MapsLine.text`, `MapsLine.Readable`.
Key theorems: `MapsLine.words_text`, `MapsLine.ofLine?_text`.
-/
import Profiler.Machine.Mapping
import Profiler.Proofs.Text.Numeral

namespace Profiler

/-- What the kernel tells about a mapping. -/
structure MapsLine where
  mapping : Mapping
  major : Nat
  minor : Nat
  inode : Nat
  /-- What stands between the inode and the path, or the end of the line. -/
  gap : List Char

namespace MapsLine

def padded (radix width n : Nat) : List Char :=
  Numeral.printed radix (width - (Nat.toDigits radix n).length) n

def fields (l : MapsLine) : List (List Char) :=
  [padded 16 8 l.mapping.start.toNat ++ '-' :: padded 16 8 l.mapping.stop.toNat,
    l.mapping.perms.toList, padded 16 8 l.mapping.offset.toNat,
    padded 16 2 l.major ++ ':' :: padded 16 2 l.minor, padded 10 1 l.inode]

def text (l : MapsLine) : String :=
  String.ofList ([' '].intercalate l.fields ++ (l.gap ++ (l.mapping.path.getD "").toList))

/-- The permissions are a word, and white space parts the path, which neither
begins nor ends with any, from what stands before it. -/
structure Readable (l : MapsLine) : Prop where
  perms : Text.IsWord l.mapping.perms.toList
  gap : ∀ c ∈ l.gap, isBlank c = true
  path : ∀ path ∈ l.mapping.path, l.gap ≠ [] ∧ path ≠ "" ∧
    (∀ c ∈ path.toList.head?, isBlank c = false) ∧
    ∀ c ∈ path.toList.getLast?, isBlank c = false

variable {l : MapsLine}

theorem isWord_of_mem_fields (h : l.Readable) : ∀ w ∈ l.fields, Text.IsWord w := by
  have hhex : ∀ width n, Text.IsWord (padded 16 width n) := fun width n =>
    Numeral.isWord_printed (by decide) (by decide) _ n
  have hinode : Text.IsWord (padded 10 1 l.inode) :=
    Numeral.isWord_printed (by decide) (by decide) _ l.inode
  have hrange := (hhex 8 l.mapping.start.toNat).append_cons (c := '-') rfl
    (hhex 8 l.mapping.stop.toNat)
  have hdevice := (hhex 2 l.major).append_cons (c := ':') rfl (hhex 2 l.minor)
  simp only [fields, List.forall_mem_cons, List.not_mem_nil, false_implies, implies_true, and_true]
  exact ⟨hrange, h.perms, hhex 8 _, hdevice, hinode⟩

/-- The words of a line are its fields and the words of the path. -/
theorem words_text (h : l.Readable) : Text.words l.text =
    l.fields.map String.ofList ++ Text.words (l.mapping.path.getD "") := by
  have hfields := Text.words_intercalate (isWord_of_mem_fields h)
  have hgap := h.gap
  cases heq : l.gap with
  | nil =>
    -- a path is parted from the fields, so there is none
    have hpath : l.mapping.path = none :=
      Option.eq_none_iff_forall_not_mem.mpr fun path hpath => (h.path path hpath).1 heq
    have hnone : Text.words "" = [] := rfl
    rw [text, heq, hpath, Option.getD_none, hnone, List.append_nil]
    simpa using hfields
  | cons c gap =>
    rw [heq, List.forall_mem_cons] at hgap
    rw [text, heq, List.cons_append, Text.words_append_cons _ _ hgap.1, hfields,
      Text.words_append_of_blank hgap.2, String.ofList_toList]

theorem hex64?_padded (width : Nat) (v : UInt64) :
    Numeral.hex64? (String.ofList (padded 16 width v.toNat)) = some v := by
  have hread := Numeral.unsigned?_printed (by decide : 1 < 16) (by decide) v.toNat_lt
    (width - (Nat.toDigits 16 v.toNat).length)
  rw [Numeral.hex64?, String.toList_ofList, padded, hread, Option.map_some, UInt64.ofNat_toNat]

theorem splitFirst?_padded (width n : Nat) (rest : List Char) :
    Text.splitFirst? '-' (padded 16 width n ++ '-' :: rest) = some (padded 16 width n, rest) :=
  Text.splitFirst?_append (Numeral.not_mem_printed (by decide) (by decide) rfl _ _) rest

/-- **A line is read back but for the white space of its path**, which becomes
single blanks: the mapping is the one the line is about if and only if the path has
no other white space. -/
theorem ofLine?_text (l : MapsLine) (h : l.Readable) :
    Mapping.ofLine? l.text = some { l.mapping with
        path := l.mapping.path.map fun path => " ".intercalate (Text.words path) } ∧
      (Mapping.ofLine? l.text = some l.mapping ↔
        ∀ path ∈ l.mapping.path, Text.SingleBlanks path.toList) := by
  have hpath : (if (Text.words (l.mapping.path.getD "")).isEmpty then none
      else some (" ".intercalate (Text.words (l.mapping.path.getD "")))) =
      l.mapping.path.map fun path => " ".intercalate (Text.words path) := by
    cases heq : l.mapping.path with
    | none => rfl
    | some path =>
      obtain ⟨-, hne, hfirst, -⟩ := h.path path heq
      exact if_neg (mt List.isEmpty_iff.mp (Text.words_ne_nil hne hfirst))
  have hread : Mapping.ofLine? l.text = some { l.mapping with
      path := l.mapping.path.map fun path => " ".intercalate (Text.words path) } := by
    rw [Mapping.ofLine?, words_text h, ← hpath]
    simp only [fields, List.map_cons, List.map_nil, List.cons_append, List.nil_append,
      String.toList_ofList, String.ofList_toList, splitFirst?_padded, hex64?_padded,
      Option.bind_eq_bind, Option.bind_some]
    rfl
  have hsame : ∀ path, { l.mapping with path } = l.mapping ↔ path = l.mapping.path :=
    fun path => ⟨fun heq => congrArg Mapping.path heq, fun heq => by rw [heq]⟩
  refine ⟨hread, ?_⟩
  rw [hread, Option.some_inj, hsame]
  cases heq : l.mapping.path with
  | none => exact iff_of_true rfl nofun
  | some path =>
    obtain ⟨-, -, hfirst, hlast⟩ := h.path path heq
    simpa using Text.intercalate_words_eq_iff hfirst hlast

/-- A shared library. -/
theorem ofLine?_text_library :
    let l : MapsLine := ⟨⟨0x7f1c2a000000, 0x7f1c2a1c8000, "r-xp", 0x28000,
      some "/usr/lib/libc.so.6"⟩, 8, 1, 1234, [' ', ' ', ' ']⟩
    l.Readable ∧
      l.text = "7f1c2a000000-7f1c2a1c8000 r-xp 00028000 08:01 1234   /usr/lib/libc.so.6" ∧
      Mapping.ofLine? l.text = some l.mapping := by
  intro l
  have h : l.Readable := by
    refine ⟨⟨by decide, ?_⟩, ?_, ?_⟩ <;> simp [l, isBlank]
  refine ⟨h, by decide +kernel, (ofLine?_text l h).2.mpr ?_⟩
  rintro _ ⟨rfl⟩
  constructor <;> simp [isBlank]

/-- Two blanks in a path become one. -/
theorem ofLine?_text_two_blanks :
    let l : MapsLine := ⟨⟨0x400000, 0x452000, "r-xp", 0, some "/opt/my  app"⟩, 8, 1, 1234,
      [' ', ' ', ' ']⟩
    l.Readable ∧ l.text = "00400000-00452000 r-xp 00000000 08:01 1234   /opt/my  app" ∧
      Mapping.ofLine? l.text = some { l.mapping with path := some "/opt/my app" } ∧
      Mapping.ofLine? l.text ≠ some l.mapping := by
  intro l
  have h : l.Readable := by
    refine ⟨⟨by decide, ?_⟩, ?_, ?_⟩ <;> simp [l, isBlank]
  exact ⟨h, by decide +kernel, by decide +kernel, by decide +kernel⟩

end MapsLine
end Profiler
