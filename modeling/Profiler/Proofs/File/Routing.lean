/-
# Whose an event id is

When a file is opened, an id belongs to the attr whose list has it. A record
that announces ids gives them to other attrs, and from then on the last
announcement counts. `ownerOf` says so of a list of records; the table of a
file agrees with it when the file is opened (`get?_tableOfIds`), and every
record that is read keeps the agreement (`RecordFile.get?_learnIds`).

Key definitions: `IdsDisjoint`, `Record.announced`, `ownerOf`.
Key theorems: `RecordFile.get?_tableOfIds`, `RecordFile.get?_learnIds`.
-/
import Profiler.File.Opened

namespace Profiler

/-- No id is in the lists of two attrs. -/
def IdsDisjoint (attrs : List AttrWithIds) : Prop :=
  attrs.Pairwise fun a b => ∀ id ∈ a.ids, id ∉ b.ids

/-- The ids that a record announces to a file of `n` attrs, each with the index
of its attr. An index without an attr does not count. -/
def Record.announced (n : Nat) : Record → List (UInt64 × Nat)
  | eventIds ids => (ids.filter fun p => p.1.toNat < n).map fun p => (p.2, p.1.toNat)
  | _ => []

theorem Record.snd_lt_of_mem_announced {r : Record} {n : Nat} {e : UInt64 × Nat}
    (h : e ∈ r.announced n) : e.2 < n := by
  cases r with
  | eventIds ids =>
    obtain ⟨p, hp, rfl⟩ := List.mem_map.mp h
    exact of_decide_eq_true (List.mem_filter.mp hp).2
  | _ => cases h

/-- The index of the attr that an id belongs to after some records: the one
that it was announced for last, or else the one whose list has it. -/
def ownerOf (attrs : List AttrWithIds) (before : List Record) (id : UInt64) : Option Nat :=
  (((before.flatMap (Record.announced attrs.length)).reverse.find? fun e => e.1 = id).map
    Prod.snd).or (attrs.findIdx? fun a => a.ids.contains id)

namespace RecordFile

/-! ### The table of an opened file -/

/-- Every id with the index of its attr, as the attr table lists them. -/
def listed (attrs : List AttrWithIds) : List (UInt64 × Nat) :=
  attrs.zipIdx.flatMap fun (a, i) => a.ids.map (·, i)

theorem mem_listed {attrs : List AttrWithIds} {e : UInt64 × Nat} :
    e ∈ listed attrs ↔ ∃ a, attrs[e.2]? = some a ∧ e.1 ∈ a.ids := by
  obtain ⟨id, i⟩ := e
  simp only [listed, List.mem_flatMap, List.mem_map, Prod.exists, List.mem_zipIdx_iff_getElem?,
    Prod.mk.injEq]
  constructor
  · rintro ⟨a, j, ha, _, hid, rfl, rfl⟩
    exact ⟨a, ha, hid⟩
  · rintro ⟨a, ha, hid⟩
    exact ⟨a, i, ha, id, hid, rfl, rfl⟩

theorem index_unique {attrs : List AttrWithIds} (hids : IdsDisjoint attrs) {i j : Nat}
    {a b : AttrWithIds} {id : UInt64} (ha : attrs[i]? = some a) (hb : attrs[j]? = some b)
    (hia : id ∈ a.ids) (hib : id ∈ b.ids) : i = j := by
  obtain ⟨hi, rfl⟩ := List.getElem?_eq_some_iff.mp ha
  obtain ⟨hj, rfl⟩ := List.getElem?_eq_some_iff.mp hb
  have hpair := List.pairwise_iff_getElem.mp hids
  rcases Nat.lt_trichotomy i j with h | h | h
  · exact absurd hib (hpair i j hi hj h id hia)
  · exact h
  · exact absurd hia (hpair j i hj hi h id hib)

/-- **The table of disjoint lists finds the attr whose list has the id.** -/
theorem get?_tableOfIds {attrs : List AttrWithIds} (hids : IdsDisjoint attrs) (id : UInt64) :
    (tableOfIds attrs).get? id = attrs.findIdx? fun a => a.ids.contains id := by
  have htable : tableOfIds attrs = OrderedMap.ofList (listed attrs) := rfl
  rw [htable, OrderedMap.get?_ofList]
  cases howner : attrs.findIdx? fun a => a.ids.contains id with
  | none =>
    have hnone := List.findIdx?_eq_none_iff.mp howner
    rw [Option.map_eq_none_iff, List.find?_eq_none]
    rintro e he heq
    obtain ⟨a, ha, hid⟩ := mem_listed.mp (List.mem_reverse.mp he)
    have hlacks := hnone a (List.mem_of_getElem? ha)
    rw [← of_decide_eq_true heq, List.contains_iff_mem.mpr hid] at hlacks
    cases hlacks
  | some i =>
    obtain ⟨hi, hhas, -⟩ := List.findIdx?_eq_some_iff_getElem.mp howner
    have hid : id ∈ attrs[i].ids := List.contains_iff_mem.mp hhas
    have hlisted : (id, i) ∈ listed attrs := mem_listed.mpr ⟨_, List.getElem?_eq_getElem hi, hid⟩
    cases hfind : (listed attrs).reverse.find? fun e => decide (e.1 = id) with
    | none =>
      have hlacks := List.find?_eq_none.mp hfind (id, i) (List.mem_reverse.mpr hlisted)
      exact absurd (decide_eq_true rfl) hlacks
    | some e =>
      have heq := List.find?_some hfind
      simp only [decide_eq_true_eq] at heq
      obtain ⟨b, hb, hib⟩ := mem_listed.mp (List.mem_reverse.mp (List.mem_of_find?_eq_some hfind))
      rw [heq] at hib
      rw [Option.map_some, index_unique hids hb (List.getElem?_eq_getElem hi) hib hid]

/-! ### What reading a record changes -/

variable (f : RecordFile) (r : Record)

@[simp] theorem learnIds_attrs : (f.learnIds r).attrs = f.attrs := by cases r <;> rfl

@[simp] theorem learnIds_idPositions? : (f.learnIds r).idPositions? = f.idPositions? := by
  cases r <;> rfl

theorem learnIds_idToAttr : (f.learnIds r).idToAttr =
    (r.announced f.attrs.length).foldl (fun table e => table.insert e.1 e.2) f.idToAttr := by
  cases r with
  | eventIds ids =>
    simp only [learnIds, Record.announced, List.foldl_map, List.foldl_filter, decide_eq_true_eq]
  | _ => rfl

variable {f} {before : List Record}

theorem ownerOf_append (attrs : List AttrWithIds) (before : List Record) (id : UInt64) :
    ownerOf attrs (before ++ [r]) id =
      (((r.announced attrs.length).reverse.find? fun e => e.1 = id).map Prod.snd).or
        (ownerOf attrs before id) := by
  rw [ownerOf, ownerOf, List.flatMap_append, List.flatMap_singleton, List.reverse_append,
    List.find?_append, Option.map_or, Option.or_assoc]

/-- **A record that is read keeps the table true.** -/
theorem get?_learnIds (h : ∀ id, f.idToAttr.get? id = ownerOf f.attrs before id) (id : UInt64) :
    (f.learnIds r).idToAttr.get? id = ownerOf f.attrs (before ++ [r]) id := by
  rw [learnIds_idToAttr, OrderedMap.get?_foldl_insert, h, ownerOf_append]

end RecordFile

end Profiler
