/-
# Maps in key order

A finite map as the list of its entries, least key first. What the profiler
shows of a map is its entries in key order, so the order is part of the value
and not of a traversal. Looking up what was inserted needs no assumption about
the order of the list.

Key definitions: `OrderedMap`, `OrderedMap.insert`, `OrderedMap.get?`,
`OrderedMap.erase`.
Key theorems: `OrderedMap.get?_insert_self`, `OrderedMap.get?_insert_of_ne`,
`OrderedMap.get?_foldl_insert`, `OrderedMap.get?_ofList`.
-/
namespace Profiler

/-- A finite map; its entries are listed by key. -/
structure OrderedMap (κ α : Type) where
  entries : List (κ × α) := []
  deriving DecidableEq, Repr

namespace OrderedMap

variable {κ α : Type}

instance : Inhabited (OrderedMap κ α) := ⟨{}⟩

def isEmpty (m : OrderedMap κ α) : Bool := m.entries.isEmpty

def keys (m : OrderedMap κ α) : List κ := m.entries.map Prod.fst

def values (m : OrderedMap κ α) : List α := m.entries.map Prod.snd

/-- The entries with one more, in the place of an entry with the same key. -/
def insertEntry [LT κ] [DecidableLT κ] [DecidableEq κ] (k : κ) (a : α) :
    List (κ × α) → List (κ × α)
  | [] => [(k, a)]
  | (k', a') :: rest =>
    if k < k' then (k, a) :: (k', a') :: rest
    else if k = k' then (k, a) :: rest
    else (k', a') :: insertEntry k a rest

def insert [LT κ] [DecidableLT κ] [DecidableEq κ] (m : OrderedMap κ α) (k : κ) (a : α) :
    OrderedMap κ α := ⟨insertEntry k a m.entries⟩

def get? [DecidableEq κ] (m : OrderedMap κ α) (k : κ) : Option α :=
  (m.entries.find? fun e => decide (e.1 = k)).map Prod.snd

def contains [DecidableEq κ] (m : OrderedMap κ α) (k : κ) : Bool := (m.get? k).isSome

def erase [DecidableEq κ] (m : OrderedMap κ α) (k : κ) : OrderedMap κ α :=
  ⟨m.entries.filter fun e => decide (e.1 ≠ k)⟩

/-- The map of a list of bindings, of which the last one for a key counts. -/
def ofList [LT κ] [DecidableLT κ] [DecidableEq κ] (l : List (κ × α)) : OrderedMap κ α :=
  l.foldl (fun (m : OrderedMap κ α) (e : κ × α) => m.insert e.1 e.2) ⟨[]⟩

section Lookup

variable [LT κ] [DecidableLT κ] [DecidableEq κ]

theorem get?_insert_self (m : OrderedMap κ α) (k : κ) (a : α) : (m.insert k a).get? k = some a := by
  obtain ⟨l⟩ := m
  simp only [get?, insert]
  induction l with
  | nil => simp [insertEntry]
  | cons e rest ih =>
    obtain ⟨k', a'⟩ := e
    rw [insertEntry]
    split
    · simp
    · split
      · simp
      · next hne => simp [Ne.symm hne, ih]

theorem get?_insert_of_ne (m : OrderedMap κ α) {k k' : κ} (a : α) (h : k ≠ k') :
    (m.insert k a).get? k' = m.get? k' := by
  obtain ⟨l⟩ := m
  simp only [get?, insert]
  induction l with
  | nil => simp [insertEntry, h]
  | cons e rest ih =>
    obtain ⟨k'', a''⟩ := e
    rw [insertEntry]
    split
    · simp [h]
    · split
      · next heq => subst heq; simp [h]
      · by_cases hk : k'' = k' <;> simp [hk, ih]

/-- Of several bindings for a key the last one counts. -/
theorem get?_foldl_insert (l : List (κ × α)) (m : OrderedMap κ α) (k : κ) :
    (l.foldl (fun (m : OrderedMap κ α) (e : κ × α) => m.insert e.1 e.2) m).get? k =
      ((l.reverse.find? fun e => decide (e.1 = k)).map Prod.snd).or (m.get? k) := by
  induction l generalizing m with
  | nil => rfl
  | cons e rest ih =>
    rw [List.foldl_cons, ih, List.reverse_cons, List.find?_append, Option.map_or, Option.or_assoc]
    congr 1
    by_cases h : e.1 = k
    · rw [← h, get?_insert_self]
      simp
    · rw [get?_insert_of_ne m e.2 h]
      simp [h]

theorem get?_ofList (l : List (κ × α)) (k : κ) :
    (ofList l).get? k = (l.reverse.find? fun e => decide (e.1 = k)).map Prod.snd := by
  have hempty : (⟨[]⟩ : OrderedMap κ α).get? k = none := rfl
  rw [ofList, get?_foldl_insert, hempty, Option.or_none]

end Lookup

end OrderedMap
end Profiler
