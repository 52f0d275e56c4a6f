/-
# The last map of an address counts

Maps are added to the kernel and to processes in any order and at any place.
What is said of an address then is what the last map says that was added there
for its owner, as if no map had ever been cut (`ThreadTree.maps_foldl_run`).
One call changes the maps of its own owner only (`MapCall.mapsOf_run`) and
makes its map the last one of its addresses (`MapCall.find?_run`).

Key definitions: `MapOwner`, `MapCall`, `MapCall.Covers`, `lastCovering`.
Key theorems: `MapCall.find?_run`, `ThreadTree.maps_foldl_run`.
-/
import Mathlib.Data.List.Basic
import Mathlib.Data.List.Induction
import Profiler.Process.ThreadTree
import Profiler.Proofs.Process.MapSet

namespace Profiler

/-- Whose a set of maps is. -/
inductive MapOwner where
  | kernel
  | process (pid : Pid)
  deriving DecidableEq, Repr

def MapOwner.pid : MapOwner → Pid
  | kernel => kernelPid
  | process pid => pid

def ThreadTree.mapsOwnedBy (t : ThreadTree) : MapOwner → MapSet
  | .kernel => t.kernelMaps
  | .process pid => t.mapsOf pid

/-- A call that adds a map. -/
structure MapCall where
  owner : MapOwner
  start : UInt64
  len : UInt64
  pgoff : UInt64 := 0
  time : UInt64 := 0
  filename : String
  deriving DecidableEq, Repr

namespace MapCall

def run (t : ThreadTree) (c : MapCall) : ThreadTree :=
  match c.owner with
  | .kernel => t.addKernelMap c.start c.len c.pgoff c.time c.filename
  | .process pid => t.addUserMap pid c.start c.len c.pgoff c.time c.filename

/-- Whether the range that was added holds an address. A range ends at the
greatest address at the latest. -/
def Covers (c : MapCall) (addr : UInt64) : Prop :=
  c.start.toNat ≤ addr.toNat ∧
    addr.toNat < min (c.start.toNat + c.len.toNat) (UInt64.size - 1)

instance (c : MapCall) (addr : UInt64) : Decidable (c.Covers addr) :=
  inferInstanceAs (Decidable (_ ∧ _))

/-- What the range that was added says of an address. -/
def viewAt (c : MapCall) (addr : UInt64) : MapView :=
  ⟨c.filename, c.time, c.owner.pid, addr - c.start + c.pgoff⟩

/-- The range as a map. -/
def entry (c : MapCall) : MapEntry := ⟨c.owner.pid, c.start, c.len, c.pgoff, c.time, c.filename⟩

end MapCall

/-- The last call that added an address for an owner. -/
def lastCovering (calls : List MapCall) (owner : MapOwner) (addr : UInt64) : Option MapCall :=
  calls.reverse.find? fun c => c.owner = owner ∧ c.Covers addr

namespace MapCall

/-! ### One call -/

variable {t : ThreadTree} {c : MapCall}

theorem contains_entry (c : MapCall) (addr : UInt64) :
    c.entry.contains addr = true ↔ c.Covers addr := by
  rw [MapEntry.contains_iff, UInt64.le_iff_toNat_le, UInt64.lt_iff_toNat_lt, MapEntry.toNat_stop]
  rfl

theorem run_of_len_eq_zero (t : ThreadTree) (h : c.len = 0) : c.run t = t := by
  unfold run
  split
  · rw [ThreadTree.addKernelMap, if_pos h]
  · rw [ThreadTree.addUserMap, if_pos h]

theorem mapsOwnedBy_run_self (t : ThreadTree) (h : c.len ≠ 0) :
    (c.run t).mapsOwnedBy c.owner = (t.mapsOwnedBy c.owner).insert c.entry := by
  cases howner : c.owner with
  | kernel =>
    simp only [run, howner, ThreadTree.addKernelMap, if_neg h, ThreadTree.mapsOwnedBy, entry,
      MapOwner.pid]
  | process pid =>
    simp only [run, howner, ThreadTree.addUserMap, if_neg h, ThreadTree.mapsOwnedBy, entry,
      MapOwner.pid]
    rw [ThreadTree.mapsOf, OrderedMap.get?_insert_self]
    rfl

theorem mapsOwnedBy_run_of_ne (t : ThreadTree) {owner : MapOwner} (h : owner ≠ c.owner) :
    (c.run t).mapsOwnedBy owner = t.mapsOwnedBy owner := by
  by_cases hlen : c.len = 0
  · rw [run_of_len_eq_zero t hlen]
  · cases howner : c.owner with
    | kernel =>
      simp only [run, howner, ThreadTree.addKernelMap, if_neg hlen]
      cases owner with
      | kernel => exact absurd howner.symm h
      | process pid => rfl
    | process pid =>
      simp only [run, howner, ThreadTree.addUserMap, if_neg hlen]
      cases owner with
      | kernel => rfl
      | process other =>
        have hne : pid ≠ other := fun heq => h (by rw [howner, heq])
        rw [ThreadTree.mapsOwnedBy, ThreadTree.mapsOf, OrderedMap.get?_insert_of_ne _ _ hne]
        rfl

/-- **A call keeps the live maps of every owner apart and in order.** -/
theorem live_run (ht : ∀ owner, (t.mapsOwnedBy owner).Live) (c : MapCall) (owner : MapOwner) :
    ((c.run t).mapsOwnedBy owner).Live := by
  by_cases hlen : c.len = 0
  · rw [run_of_len_eq_zero t hlen]
    exact ht owner
  · by_cases howner : owner = c.owner
    · rw [howner, mapsOwnedBy_run_self t hlen]
      exact MapSet.live_insert (ht c.owner) c.entry
    · rw [mapsOwnedBy_run_of_ne t howner]
      exact ht owner

/-- **A call answers for the addresses that it adds, and changes no others.** -/
theorem find?_run (ht : ∀ owner, (t.mapsOwnedBy owner).Live) (c : MapCall) (owner : MapOwner)
    (addr : UInt64) : (((c.run t).mapsOwnedBy owner).find? addr).map (·.viewAt addr) =
      if c.owner = owner ∧ c.Covers addr then some (c.viewAt addr)
      else ((t.mapsOwnedBy owner).find? addr).map (·.viewAt addr) := by
  by_cases howner : c.owner = owner
  · subst howner
    by_cases hlen : c.len = 0
    · have hcovers : ¬ c.Covers addr := by
        rintro ⟨hle, hlt⟩
        rw [hlen, UInt64.toNat_zero] at hlt
        omega
      rw [run_of_len_eq_zero t hlen, if_neg fun h => hcovers h.2]
    · rw [mapsOwnedBy_run_self t hlen, MapSet.find?_insert (ht c.owner) hlen]
      by_cases hcovers : c.Covers addr
      · rw [if_pos ((contains_entry c addr).mpr hcovers), if_pos ⟨rfl, hcovers⟩]
        rfl
      · rw [if_neg (mt (contains_entry c addr).mp hcovers), if_neg fun h => hcovers h.2]
  · rw [mapsOwnedBy_run_of_ne t (Ne.symm howner), if_neg fun h => howner h.1]

end MapCall

/-! ### All calls -/

theorem lastCovering_append (calls : List MapCall) (c : MapCall) (owner : MapOwner)
    (addr : UInt64) : lastCovering (calls ++ [c]) owner addr =
      if c.owner = owner ∧ c.Covers addr then some c else lastCovering calls owner addr := by
  rw [lastCovering, List.reverse_append, List.reverse_singleton, List.singleton_append,
    List.find?_cons]
  split
  · next h => rw [if_pos (of_decide_eq_true h)]
  · next h => rw [if_neg (of_decide_eq_false h), lastCovering]

theorem isSome_lastCovering_iff {calls : List MapCall} {owner : MapOwner} {addr : UInt64} :
    (lastCovering calls owner addr).isSome ↔ ∃ c ∈ calls, c.owner = owner ∧ c.Covers addr := by
  simp [lastCovering, List.find?_isSome]

namespace ThreadTree

theorem live_foldl_run (calls : List MapCall) (owner : MapOwner) :
    ((calls.foldl MapCall.run {}).mapsOwnedBy owner).Live := by
  induction calls using List.reverseRecOn generalizing owner with
  | nil => cases owner <;> exact List.Pairwise.nil
  | append_singleton calls c ih =>
    rw [List.foldl_concat]
    exact MapCall.live_run ih c owner

/-- After any calls an address shows what the last call said of it. -/
theorem find?_foldl_run (calls : List MapCall) (owner : MapOwner) (addr : UInt64) :
    (((calls.foldl MapCall.run {}).mapsOwnedBy owner).find? addr).map (·.viewAt addr) =
      (lastCovering calls owner addr).map (·.viewAt addr) := by
  induction calls using List.reverseRecOn with
  | nil => cases owner <;> rfl
  | append_singleton calls c ih =>
    rw [List.foldl_concat, MapCall.find?_run (live_foldl_run calls) c, lastCovering_append]
    split
    · rfl
    · exact ih

/-- **The last map of an address counts.** Whatever maps were added, in
whatever order, an address is found exactly when some range that was added for
the owner holds it, and what is then said of it is what the last such range
says. One more call leaves the live maps of every owner apart and in the order
of their starts, those of other owners as they were, and all of them if its
length is zero. -/
theorem maps_foldl_run (calls : List MapCall) (c : MapCall) (owner : MapOwner) (addr : UInt64) :
    let t := calls.foldl MapCall.run {}
    let found := (t.mapsOwnedBy owner).find? addr
    (found.isSome ↔ ∃ c ∈ calls, c.owner = owner ∧ c.Covers addr) ∧
      found.map (·.viewAt addr) = (lastCovering calls owner addr).map (·.viewAt addr) ∧
      ((c.run t).mapsOwnedBy owner).Live ∧
      (owner ≠ c.owner → (c.run t).mapsOwnedBy owner = t.mapsOwnedBy owner) ∧
      (c.len = 0 → c.run t = t) := by
  intro t found
  have hviews : found.map (·.viewAt addr) = (lastCovering calls owner addr).map (·.viewAt addr) :=
    find?_foldl_run calls owner addr
  refine ⟨?_, hviews, MapCall.live_run (live_foldl_run calls) c owner,
    MapCall.mapsOwnedBy_run_of_ne t, MapCall.run_of_len_eq_zero t⟩
  rw [← isSome_lastCovering_iff, ← Option.isSome_map, hviews, Option.isSome_map]

/-- A map in the middle of an older one: what the older one says beside it goes on. -/
example :
    let calls : List MapCall := [
      { owner := .process 1, start := 0, len := 100, time := 1, filename := "old" },
      { owner := .process 1, start := 40, len := 20, pgoff := 4096, time := 2, filename := "new" }]
    let maps := (calls.foldl MapCall.run {}).mapsOwnedBy (.process 1)
    maps.map (fun m => (m.start, m.len, m.pgoff)) = [(0, 40, 0), (40, 20, 4096), (60, 40, 60)] ∧
      (maps.find? 70).map (·.viewAt 70) = some ⟨"old", 1, 1, 70⟩ := by decide

end ThreadTree
end Profiler
