/-
# The pairs of the meta information

A payload of meta information is its pairs: a key and a value, each of them
ended by a NUL. What a NUL ends are the pieces of the payload, so there is one
piece more than there are NULs. A payload is read exactly when these are even in
number and nothing stands behind the last one, and of the values of a key the
last one counts (`MetaInfo.decodeInto_eq`).

The pieces can also be taken two at a time, with a count of the pieces and a
count of the bytes that they and their NULs take (`MetaInfo.Scan`). The two
counts describe the same place at every round (`MetaInfo.Scan.InStep`), and this
scan decodes what `MetaInfo.decode` does.

Key definitions: `MetaInfo.pieces`, `MetaInfo.rawPairs`, `MetaInfo.LastValue`,
`MetaInfo.Scan`, `MetaInfo.Scan.round`, `MetaInfo.Scan.run`,
`MetaInfo.Scan.InStep`.
Key theorems: `MetaInfo.decodeInto_eq`, `MetaInfo.flatMap_rawPairs`,
`MetaInfo.get?_foldl_addPair`, `MetaInfo.Scan.InStep.round_cases`,
`MetaInfo.Scan.Reaches.inStep`, `MetaInfo.Scan.run_start`,
`MetaInfo.decode_pairs`.
-/
import Profiler.File.Payload
import Profiler.Proofs.Bytes

namespace Profiler

theorem Bytes.untilNul?_eq_none_iff {d : Bytes} : d.untilNul? = none ↔ (0 : UInt8) ∉ d := by
  constructor
  · intro hnone hmem
    obtain ⟨front, rest, rfl, hfront⟩ := List.eq_append_cons_of_mem hmem
    rw [Bytes.untilNul?_eq_some_iff.mpr ⟨rfl, hfront⟩] at hnone
    cases hnone
  · intro h
    cases hnul : d.untilNul? with
    | none => rfl
    | some found =>
      obtain ⟨rfl, -⟩ := Bytes.untilNul?_eq_some_iff.mp hnul
      simp at h

namespace MetaInfo

/-! ### Pieces and pairs -/

/-- What stands before, between and behind the NULs. -/
def pieces (d : Bytes) : List Bytes := d.splitOn 0

/-- Two pieces at a time; an odd one at the end is left out. -/
def pairUp : List Bytes → List (Bytes × Bytes)
  | key :: value :: rest => (key, value) :: pairUp rest
  | _ => []

/-- The pairs of a payload, as they are stored. -/
def rawPairs (d : Bytes) : List (Bytes × Bytes) := pairUp (pieces d)

/-- The bytes of a pair. -/
def pairBytes (p : Bytes × Bytes) : Bytes := p.1 ++ 0 :: p.2 ++ [0]

/-- The map with one more pair, whose bytes are decoded as well as they can be. -/
def addPair (m : MetaInfo) (p : Bytes × Bytes) : MetaInfo := m.insert (Utf8.decode p.1) (Utf8.decode p.2)

/-- The last of these pairs with the key has the value. -/
def LastValue (ps : List (Bytes × Bytes)) (key value : String) : Prop :=
  ∃ before p after, ps = before ++ p :: after ∧ Utf8.decode p.1 = key ∧ Utf8.decode p.2 = value ∧
    ∀ q ∈ after, Utf8.decode q.1 ≠ key

variable {d front rest key value : Bytes}

theorem length_pairBytes (key value : Bytes) :
    (pairBytes (key, value)).length = key.length + value.length + 2 := by
  simp only [pairBytes, List.length_append, List.length_cons, List.length_nil]
  omega

theorem pairBytes_append (p : Bytes × Bytes) (rest : Bytes) :
    pairBytes p ++ rest = p.1 ++ 0 :: (p.2 ++ 0 :: rest) := by simp [pairBytes]

theorem pieces_of_not_mem (h : (0 : UInt8) ∉ d) : pieces d = [d] := List.splitOn_eq_singleton h

theorem length_pieces_pos (d : Bytes) : 0 < (pieces d).length :=
  List.length_pos_iff.mpr (List.splitOnP_ne_nil _ d)

theorem pieces_append_cons (h : (0 : UInt8) ∉ front) (rest : Bytes) :
    pieces (front ++ 0 :: rest) = front :: pieces rest := by
  have hne : ∀ b ∈ front, (b == (0 : UInt8)) = false := fun b hb => by
    have : b ≠ 0 := fun h0 => h (h0 ▸ hb)
    simpa using this
  exact List.splitOnP_append_cons_of_forall_mem hne 0 rfl rest

theorem rawPairs_of_not_mem (h : (0 : UInt8) ∉ d) : rawPairs d = [] := by
  rw [rawPairs, pieces_of_not_mem h, pairUp]
  simp

theorem rawPairs_append (hkey : (0 : UInt8) ∉ key) (hvalue : (0 : UInt8) ∉ value) (rest : Bytes) :
    rawPairs (key ++ 0 :: (value ++ 0 :: rest)) = (key, value) :: rawPairs rest := by
  rw [rawPairs, pieces_append_cons hkey, pieces_append_cons hvalue, pairUp, rawPairs]

/-! ### What is decoded -/

@[simp] theorem decodeInto_nil (m : MetaInfo) : decodeInto m [] = .ok m := by
  rw [decodeInto, dif_pos rfl]

theorem decodeInto_of_not_mem (m : MetaInfo) (hne : d ≠ []) (h : (0 : UInt8) ∉ d) :
    decodeInto m d = .error .metaPair := by
  rw [decodeInto, dif_neg hne]
  split
  · rfl
  · next hkey =>
    rw [Bytes.untilNul?_eq_none_iff.mpr h] at hkey
    cases hkey

/-- No NUL ends the value. -/
theorem decodeInto_of_value_not_mem (m : MetaInfo) (hkey : (0 : UInt8) ∉ key)
    (hvalue : (0 : UInt8) ∉ value) : decodeInto m (key ++ 0 :: value) = .error .metaValue := by
  have hfirst : Bytes.untilNul? (key ++ 0 :: value) = some (key, value) :=
    Bytes.untilNul?_eq_some_iff.mpr ⟨rfl, hkey⟩
  rw [decodeInto, dif_neg (by simp)]
  split
  · next hnone =>
    rw [hfirst] at hnone
    cases hnone
  · next key' value' hsome =>
    rw [hfirst] at hsome
    cases hsome
    split
    · rfl
    · next hsecond =>
      rw [Bytes.untilNul?_eq_none_iff.mpr hvalue] at hsecond
      cases hsecond

/-- A pair is read, and then what stands behind it. -/
theorem decodeInto_pair (m : MetaInfo) (hkey : (0 : UInt8) ∉ key) (hvalue : (0 : UInt8) ∉ value)
    (rest : Bytes) : decodeInto m (key ++ 0 :: (value ++ 0 :: rest)) =
      decodeInto (addPair m (key, value)) rest := by
  have hfirst : Bytes.untilNul? (key ++ 0 :: (value ++ 0 :: rest)) = some (key, value ++ 0 :: rest) :=
    Bytes.untilNul?_eq_some_iff.mpr ⟨rfl, hkey⟩
  have hsecond : Bytes.untilNul? (value ++ 0 :: rest) = some (value, rest) :=
    Bytes.untilNul?_eq_some_iff.mpr ⟨rfl, hvalue⟩
  rw [decodeInto, dif_neg (by simp)]
  split
  · next hnone =>
    rw [hfirst] at hnone
    cases hnone
  · next key' tail hsome =>
    rw [hfirst] at hsome
    cases hsome
    split
    · next hnone =>
      rw [hsecond] at hnone
      cases hnone
    · next value' rest' hsome =>
      rw [hsecond] at hsome
      cases hsome
      rfl

/-- A payload is used up, or no NUL ends its key or its value, or there is a pair
in front. -/
theorem pair_cases (d : Bytes) : d = [] ∨ (d ≠ [] ∧ (0 : UInt8) ∉ d) ∨
    (∃ key value, d = key ++ 0 :: value ∧ (0 : UInt8) ∉ key ∧ (0 : UInt8) ∉ value) ∨
    ∃ key value rest, d = key ++ 0 :: (value ++ 0 :: rest) ∧ (0 : UInt8) ∉ key ∧
      (0 : UInt8) ∉ value := by
  by_cases hne : d = []
  · exact .inl hne
  by_cases hmem : (0 : UInt8) ∈ d
  · obtain ⟨key, tail, rfl, hkey⟩ := List.eq_append_cons_of_mem hmem
    by_cases hmem' : (0 : UInt8) ∈ tail
    · obtain ⟨value, rest, rfl, hvalue⟩ := List.eq_append_cons_of_mem hmem'
      exact .inr (.inr (.inr ⟨key, value, rest, rfl, hkey, hvalue⟩))
    · exact .inr (.inr (.inl ⟨key, tail, rfl, hkey, hmem'⟩))
  · exact .inr (.inl ⟨hne, hmem⟩)

/-- A payload is read pair by pair. -/
theorem pairInduction {P : Bytes → Prop} (nil : P [])
    (key : ∀ d, d ≠ [] → (0 : UInt8) ∉ d → P d)
    (value : ∀ key value, (0 : UInt8) ∉ key → (0 : UInt8) ∉ value → P (key ++ 0 :: value))
    (pair : ∀ key value rest, (0 : UInt8) ∉ key → (0 : UInt8) ∉ value → P rest →
      P (key ++ 0 :: (value ++ 0 :: rest))) (d : Bytes) : P d := by
  rcases pair_cases d with hd | ⟨hne, h⟩ | ⟨k, v, hd, hk, hv⟩ | ⟨k, v, rest, hd, hk, hv⟩
  · exact hd ▸ nil
  · exact key d hne h
  · exact hd ▸ value k v hk hv
  · have hshorter : rest.length < d.length := by
      rw [hd, List.length_append, List.length_cons, List.length_append, List.length_cons]
      omega
    rw [hd]
    exact pair k v rest hk hv (pairInduction nil key value pair rest)
termination_by d.length

/-- A payload that ends with a NUL if it is not empty. -/
def Closed (d : Bytes) : Prop := d = [] ∨ d.getLast? = some 0

instance (d : Bytes) : Decidable (Closed d) := inferInstanceAs (Decidable (_ ∨ _))

theorem not_closed_of_not_mem (hne : d ≠ []) (h : (0 : UInt8) ∉ d) : ¬ Closed d := by
  rintro (hnil | hlast)
  · exact hne hnil
  · exact h (List.mem_of_getLast? hlast)

theorem closed_append_cons (front rest : Bytes) : Closed (front ++ 0 :: rest) ↔ Closed rest := by
  unfold Closed
  rw [List.getLast?_append, List.getLast?_cons]
  cases h : rest.getLast? with
  | none => simp [List.getLast?_eq_none_iff.mp h]
  | some b =>
    have hne : rest ≠ [] := by
      rintro rfl
      cases h
    simp [hne]

theorem count_append_cons (h : (0 : UInt8) ∉ front) (rest : Bytes) :
    (front ++ 0 :: rest).count 0 = rest.count 0 + 1 := by
  rw [List.count_append, List.count_eq_zero.mpr h, List.count_cons_self, Nat.zero_add]

/-- What a payload is decoded to is told by its last byte and the number of its
NULs. -/
theorem decodeInto_eq (d : Bytes) : ∀ m : MetaInfo, decodeInto m d =
    if d.count 0 % 2 = 1 then .error .metaValue
    else if Closed d then .ok ((rawPairs d).foldl addPair m)
    else .error .metaPair := by
  induction d using pairInduction with
  | nil =>
    intro m
    rw [decodeInto_nil, rawPairs_of_not_mem List.not_mem_nil]
    rfl
  | key d hne h =>
    intro m
    have hcount : ¬ d.count 0 % 2 = 1 := by
      rw [List.count_eq_zero.mpr h]
      decide
    rw [decodeInto_of_not_mem m hne h, if_neg hcount, if_neg (not_closed_of_not_mem hne h)]
  | value key value hkey hvalue =>
    intro m
    have hcount : (key ++ 0 :: value).count 0 % 2 = 1 := by
      rw [count_append_cons hkey, List.count_eq_zero.mpr hvalue]
    rw [decodeInto_of_value_not_mem m hkey hvalue, if_pos hcount]
  | pair key value rest hkey hvalue ih =>
    intro m
    have hcount : (key ++ 0 :: (value ++ 0 :: rest)).count 0 % 2 = rest.count 0 % 2 := by
      rw [count_append_cons hkey, count_append_cons hvalue, Nat.add_assoc, Nat.add_mod_right]
    have hclosed : Closed (key ++ 0 :: (value ++ 0 :: rest)) ↔ Closed rest :=
      (closed_append_cons key _).trans (closed_append_cons value rest)
    rw [decodeInto_pair m hkey hvalue, ih, hcount, rawPairs_append hkey hvalue, List.foldl_cons]
    simp only [hclosed]

/-- The pairs are all of a payload that is read. -/
theorem flatMap_rawPairs (d : Bytes) :
    d.count 0 % 2 = 0 → Closed d → (rawPairs d).flatMap pairBytes = d := by
  induction d using pairInduction with
  | nil => intro _ _; rfl
  | key d hne h => exact fun _ hclosed => absurd hclosed (not_closed_of_not_mem hne h)
  | value key value hkey hvalue =>
    intro hcount
    rw [count_append_cons hkey, List.count_eq_zero.mpr hvalue] at hcount
    cases hcount
  | pair key value rest hkey hvalue ih =>
    intro hcount hclosed
    rw [count_append_cons hkey, count_append_cons hvalue, Nat.add_assoc, Nat.add_mod_right] at hcount
    rw [closed_append_cons, closed_append_cons] at hclosed
    rw [rawPairs_append hkey hvalue, List.flatMap_cons, ih hcount hclosed, pairBytes]
    simp

/-- No key and no value holds a NUL. -/
theorem not_mem_of_mem_rawPairs (d : Bytes) :
    ∀ p ∈ rawPairs d, (0 : UInt8) ∉ p.1 ∧ (0 : UInt8) ∉ p.2 := by
  induction d using pairInduction with
  | nil => simp [rawPairs_of_not_mem]
  | key d hne h => simp [rawPairs_of_not_mem h]
  | value key value hkey hvalue =>
    rw [rawPairs, pieces_append_cons hkey, pieces_of_not_mem hvalue]
    simp [pairUp, hkey, hvalue]
  | pair key value rest hkey hvalue ih =>
    rw [rawPairs_append hkey hvalue]
    exact List.forall_mem_cons.mpr ⟨⟨hkey, hvalue⟩, ih⟩

/-- Of the values of a key the last one counts. -/
theorem get?_foldl_addPair (ps : List (Bytes × Bytes)) (key value : String) :
    (ps.foldl addPair ⟨[]⟩).get? key = some value ↔ LastValue ps key value := by
  have hmap : ps.foldl addPair ⟨[]⟩ =
      OrderedMap.ofList (ps.map fun p => (Utf8.decode p.1, Utf8.decode p.2)) := by
    rw [OrderedMap.ofList, List.foldl_map]
    rfl
  rw [hmap, OrderedMap.get?_ofList, ← List.map_reverse, List.find?_map, Option.map_map,
    Option.map_eq_some_iff]
  simp only [List.find?_eq_some_iff_append, Function.comp_apply, decide_eq_true_eq,
    Bool.not_eq_true', decide_eq_false_iff_not]
  constructor
  · rintro ⟨p, ⟨hkey, after, before, hps, hafter⟩, hvalue⟩
    refine ⟨before.reverse, p, after.reverse, ?_, hkey, hvalue, fun q hq => ?_⟩
    · rw [← List.reverse_inj, hps]
      simp
    · exact hafter q (List.mem_reverse.mp hq)
  · rintro ⟨before, p, after, rfl, hkey, hvalue, hafter⟩
    refine ⟨p, ⟨hkey, after.reverse, before.reverse, by simp, fun q hq => ?_⟩, hvalue⟩
    exact hafter q (List.mem_reverse.mp hq)

/-! ### The pieces two at a time -/

/-- How far a scan has come: the pieces that it has taken, the bytes that they
and their NULs take, and the map of their pairs. -/
structure Scan where
  taken : Nat := 0
  consumed : Nat := 0
  info : MetaInfo := ⟨[]⟩

/-- One round takes a key and a value. It fails when there are no two pieces, or
not as many bytes as these and their NULs take. -/
def Scan.round (d : Bytes) (s : Scan) : Except Corruption Scan :=
  match (pieces d)[s.taken]?, (pieces d)[s.taken + 1]? with
  | some key, some value =>
    if d.length < s.consumed + key.length + value.length + 2 then .error .metaValue
    else .ok ⟨s.taken + 2, s.consumed + key.length + value.length + 2, s.info.addPair (key, value)⟩
  | _, _ => .error .metaPair

theorem Scan.consumed_lt_of_round {s s' : Scan} (h : s.round d = .ok s') :
    s.consumed < s'.consumed := by
  unfold round at h
  split at h
  · split at h
    · cases h
    · cases h
      show s.consumed < s.consumed + _ + _ + 2
      omega
  · cases h

def Scan.run (d : Bytes) (s : Scan) : Except Corruption MetaInfo :=
  if s.consumed < d.length then
    match _hround : s.round d with
    | .ok s' => run d s'
    | .error e => .error e
  else .ok s.info
termination_by d.length - s.consumed
decreasing_by
  have hlt := Scan.consumed_lt_of_round _hround
  omega

/-- A scan comes to this point before some round, or behind the last one. -/
inductive Scan.Reaches (d : Bytes) : Scan → Prop
  | start : Reaches d {}
  | round {s s' : Scan} (h : Reaches d s) (hlt : s.consumed < d.length) (hround : s.round d = .ok s') :
      Reaches d s'

/-- The two counts are of the same place: the bytes consumed are the pieces
taken with their NULs, and the other pieces are those of the other bytes. -/
structure Scan.InStep (d : Bytes) (s : Scan) : Prop where
  le : s.consumed ≤ d.length
  taken : d.take s.consumed = ((pieces d).take s.taken).flatMap fun p => p ++ [0]
  left : (pieces d).drop s.taken = pieces (d.drop s.consumed)

namespace Scan

variable {s s' : Scan}

theorem InStep.start (d : Bytes) : InStep d {} := ⟨Nat.zero_le _, rfl, rfl⟩

theorem InStep.getElem?_pieces (h : s.InStep d) (i : Nat) :
    (pieces d)[s.taken + i]? = (pieces (d.drop s.consumed))[i]? := by
  rw [← h.left, List.getElem?_drop]

theorem InStep.length_pieces (h : s.InStep d) :
    (pieces d).length = s.taken + (pieces (d.drop s.consumed)).length := by
  have hpos := length_pieces_pos (d.drop s.consumed)
  rw [← h.left, List.length_drop] at hpos ⊢
  omega

/-- With two pieces left a round takes them, if the bytes are there. -/
theorem InStep.round_eq {more : List Bytes} (h : s.InStep d)
    (hpieces : pieces (d.drop s.consumed) = key :: value :: more) :
    s.round d = if d.length < s.consumed + (pairBytes (key, value)).length then .error .metaValue
      else .ok ⟨s.taken + 2, s.consumed + (pairBytes (key, value)).length,
        s.info.addPair (key, value)⟩ := by
  have hfirst : (pieces d)[s.taken]? = some key := by
    rw [← Nat.add_zero s.taken, h.getElem?_pieces, hpieces]
    rfl
  have hsecond : (pieces d)[s.taken + 1]? = some value := by
    rw [h.getElem?_pieces, hpieces]
    rfl
  have hconsumed : s.consumed + key.length + value.length + 2 =
      s.consumed + (pairBytes (key, value)).length := by
    rw [length_pairBytes, ← Nat.add_assoc, ← Nat.add_assoc]
  rw [round, hfirst, hsecond]
  simp only [hconsumed]

/-- With a pair in front of the bytes that are left, a round takes it. -/
theorem InStep.round_pair (h : s.InStep d) (hrest : d.drop s.consumed = key ++ 0 :: (value ++ 0 :: rest))
    (hkey : (0 : UInt8) ∉ key) (hvalue : (0 : UInt8) ∉ value) :
    ∃ s', s.round d = .ok s' ∧ s'.InStep d ∧ s'.info = s.info.addPair (key, value) ∧
      d.drop s'.consumed = rest := by
  have hpieces : pieces (d.drop s.consumed) = key :: value :: pieces rest := by
    rw [hrest, pieces_append_cons hkey, pieces_append_cons hvalue]
  have hfront : d.drop s.consumed = pairBytes (key, value) ++ rest :=
    hrest.trans (pairBytes_append (key, value) rest).symm
  have hlength := congrArg List.length hfront
  rw [List.length_drop, List.length_append] at hlength
  have hle := h.le
  have hin : ¬ d.length < s.consumed + (pairBytes (key, value)).length := by omega
  have hdrop : d.drop (s.consumed + (pairBytes (key, value)).length) = rest := by
    rw [← List.drop_drop, hfront, List.drop_left]
  refine ⟨_, (h.round_eq hpieces).trans (if_neg hin), ⟨Nat.le_of_not_lt hin, ?_, ?_⟩, rfl, hdrop⟩
  · calc d.take (s.consumed + (pairBytes (key, value)).length)
        = d.take s.consumed ++ pairBytes (key, value) := by
          rw [List.take_add, hfront, List.take_left]
      _ = ((pieces d).take s.taken).flatMap (fun p => p ++ [0]) ++
            [key, value].flatMap fun p => p ++ [0] := by
          rw [h.taken]
          simp [pairBytes]
      _ = ((pieces d).take (s.taken + 2)).flatMap fun p => p ++ [0] := by
          rw [List.take_add, h.left, hpieces, List.flatMap_append]
          rfl
  · calc (pieces d).drop (s.taken + 2) = (key :: value :: pieces rest).drop 2 := by
          rw [← List.drop_drop, h.left, hpieces]
      _ = pieces (d.drop (s.consumed + (pairBytes (key, value)).length)) := by rw [hdrop]; rfl

/-- With no NUL for a value the bytes are short by that NUL. -/
theorem InStep.round_value (h : s.InStep d) (hrest : d.drop s.consumed = key ++ 0 :: value)
    (hkey : (0 : UInt8) ∉ key) (hvalue : (0 : UInt8) ∉ value) : s.round d = .error .metaValue := by
  have hpieces : pieces (d.drop s.consumed) = [key, value] := by
    rw [hrest, pieces_append_cons hkey, pieces_of_not_mem hvalue]
  have hlength := congrArg List.length hrest
  rw [List.length_drop, List.length_append, List.length_cons] at hlength
  have hshort : d.length < s.consumed + (pairBytes (key, value)).length := by
    rw [length_pairBytes]
    omega
  rw [h.round_eq hpieces, if_pos hshort]

/-- With no NUL for a key there is one piece left. -/
theorem InStep.round_key (h : s.InStep d) (hrest : (0 : UInt8) ∉ d.drop s.consumed) :
    s.round d = .error .metaPair := by
  have hsecond : (pieces d)[s.taken + 1]? = none := by
    rw [h.getElem?_pieces, pieces_of_not_mem hrest]
    rfl
  rw [round, hsecond]
  split
  · next hnone => cases hnone
  · rfl

/-- What a round does is what is decoded next, and it leaves the counts in
step. -/
theorem InStep.round_cases (h : s.InStep d) (hlt : s.consumed < d.length) :
    (∃ e, s.round d = .error e ∧ (∀ m, decodeInto m (d.drop s.consumed) = .error e) ∧
        (pieces d).length ≤ s.taken + 2) ∨
      ∃ s', s.round d = .ok s' ∧ s'.InStep d ∧ s.taken + 2 < (pieces d).length ∧
        decodeInto s.info (d.drop s.consumed) = decodeInto s'.info (d.drop s'.consumed) := by
  rw [h.length_pieces]
  rcases pair_cases (d.drop s.consumed) with hnil | ⟨hne, hkey⟩ | ⟨k, v, hrest, hk, hv⟩ |
    ⟨k, v, rest, hrest, hk, hv⟩
  · have hlength := List.drop_eq_nil_iff.mp hnil
    omega
  · refine .inl ⟨_, h.round_key hkey, fun m => decodeInto_of_not_mem m hne hkey, ?_⟩
    rw [pieces_of_not_mem hkey]
    exact Nat.add_le_add_left (Nat.le_succ 1) _
  · refine .inl ⟨_, h.round_value hrest hk hv, fun m => ?_, ?_⟩
    · rw [hrest, decodeInto_of_value_not_mem m hk hv]
    · rw [hrest, pieces_append_cons hk, pieces_of_not_mem hv]
      exact Nat.le_refl _
  · obtain ⟨s', hround, hin, hinfo, hdrop⟩ := h.round_pair hrest hk hv
    refine .inr ⟨s', hround, hin, ?_, ?_⟩
    · have hpos := length_pieces_pos rest
      rw [hrest, pieces_append_cons hk, pieces_append_cons hv, List.length_cons, List.length_cons]
      omega
    · rw [hrest, decodeInto_pair s.info hk hv, hinfo, hdrop]

theorem InStep.of_round_ok (h : s.InStep d) (hlt : s.consumed < d.length)
    (hround : s.round d = .ok s') : s'.InStep d ∧
      decodeInto s.info (d.drop s.consumed) = decodeInto s'.info (d.drop s'.consumed) := by
  rcases h.round_cases hlt with ⟨e, herror, -⟩ | ⟨s₁, hok, hin, -, hdecode⟩
  · rw [hround] at herror
    cases herror
  · rw [hround] at hok
    cases hok
    exact ⟨hin, hdecode⟩

theorem InStep.of_round_error {e : Corruption} (h : s.InStep d) (hlt : s.consumed < d.length)
    (hround : s.round d = .error e) (m : MetaInfo) : decodeInto m (d.drop s.consumed) = .error e := by
  rcases h.round_cases hlt with ⟨e', herror, hdecode, -⟩ | ⟨s₁, hok, -⟩
  · rw [hround] at herror
    cases herror
    exact hdecode m
  · rw [hround] at hok
    cases hok

/-- At every round of every scan the two counts are of the same place. -/
theorem Reaches.inStep (h : Reaches d s) : s.InStep d := by
  induction h with
  | start => exact .start d
  | round _ hlt hround ih => exact (ih.of_round_ok hlt hround).1

/-- A round succeeds exactly when a piece is left behind the two that it takes,
though what it tests are bytes. -/
theorem InStep.round_eq_ok_iff (h : s.InStep d) (hlt : s.consumed < d.length) :
    (∃ s', s.round d = .ok s') ↔ s.taken + 2 < (pieces d).length := by
  rcases h.round_cases hlt with ⟨e, herror, -, hle⟩ | ⟨s', hok, -, hpieces, -⟩
  · rw [herror]
    exact ⟨nofun, fun hpieces => absurd hpieces (Nat.not_lt.mpr hle)⟩
  · exact ⟨fun _ => hpieces, fun _ => ⟨s', hok⟩⟩

theorem run_of_round_ok (hlt : s.consumed < d.length) (hround : s.round d = .ok s') :
    s.run d = s'.run d := by
  rw [run, if_pos hlt]
  split
  · next hok =>
    rw [hround] at hok
    cases hok
    rfl
  · next herror =>
    rw [hround] at herror
    cases herror

theorem run_of_round_error {e : Corruption} (hlt : s.consumed < d.length)
    (hround : s.round d = .error e) : s.run d = .error e := by
  rw [run, if_pos hlt]
  split
  · next hok =>
    rw [hround] at hok
    cases hok
  · next herror =>
    rw [hround] at herror
    cases herror
    rfl

/-- From a place where its counts are in step a scan decodes what is left. -/
theorem InStep.run_eq (h : s.InStep d) : s.run d = decodeInto s.info (d.drop s.consumed) := by
  induction s using run.induct d with
  | case1 s hlt s₁ hround ih =>
    obtain ⟨hin, hdecode⟩ := h.of_round_ok hlt hround
    rw [run_of_round_ok hlt hround, hdecode, ih hin]
  | case2 s hlt e hround => rw [run_of_round_error hlt hround, h.of_round_error hlt hround]
  | case3 s hlt =>
    have hnil : d.drop s.consumed = [] := List.drop_eq_nil_iff.mpr (Nat.le_of_not_lt hlt)
    rw [run, if_neg hlt, hnil, decodeInto_nil]

theorem run_start (d : Bytes) : run d {} = decode d := (InStep.start d).run_eq

end Scan

/-! ### The grammar -/

theorem decode_eq_ok_iff {m : MetaInfo} : decode d = .ok m ↔
    d.count 0 % 2 = 0 ∧ Closed d ∧ m = (rawPairs d).foldl addPair ⟨[]⟩ := by
  rw [decode, decodeInto_eq]
  rcases Nat.mod_two_eq_zero_or_one (d.count 0) with heven | hodd
  · by_cases hclosed : Closed d
    · simp [heven, hclosed, eq_comm]
    · simp [heven, hclosed]
  · simp [hodd]

theorem decode_eq_error {e : Corruption} (h : decode d = .error e) :
    e = if d.count 0 % 2 = 0 then .metaPair else .metaValue := by
  rw [decode, decodeInto_eq] at h
  rcases Nat.mod_two_eq_zero_or_one (d.count 0) with heven | hodd
  · by_cases hclosed : Closed d
    · simp [heven, hclosed] at h
    · simpa [heven, hclosed, eq_comm] using h
  · simpa [hodd, eq_comm] using h

/-- **The grammar of the meta information.** A payload is decoded exactly when
it is empty, or ends with a NUL and has an even number of them. Then it is its
pairs, one after another, and a key has the value of the last pair with that
key. Otherwise the payload is corrupt: there is a value without its NUL where
the number is odd, and a key without one where it is even. A scan of the pieces
does the same, with two counts that are of the same place at every round, so
that the bytes run short exactly where the pieces do. -/
theorem decode_pairs (d : Bytes) :
    ((∃ m, decode d = .ok m) ↔ d = [] ∨ d.getLast? = some 0 ∧ d.count 0 % 2 = 0) ∧
      (∀ m, decode d = .ok m → (rawPairs d).flatMap pairBytes = d ∧
        (∀ p ∈ rawPairs d, (0 : UInt8) ∉ p.1 ∧ (0 : UInt8) ∉ p.2) ∧
        ∀ key value, m.get? key = some value ↔ LastValue (rawPairs d) key value) ∧
      (∀ e, decode d = .error e → e = if d.count 0 % 2 = 0 then .metaPair else .metaValue) ∧
      Scan.run d {} = decode d ∧
      ∀ s, Scan.Reaches d s → s.InStep d ∧
        (s.consumed < d.length → ((∃ s', s.round d = .ok s') ↔ s.taken + 2 < (pieces d).length)) := by
  refine ⟨⟨?_, ?_⟩, ?_, fun e => decode_eq_error, Scan.run_start d, fun s hs => ?_⟩
  · rintro ⟨m, hm⟩
    obtain ⟨heven, hclosed, -⟩ := decode_eq_ok_iff.mp hm
    exact hclosed.imp_right fun hlast => ⟨hlast, heven⟩
  · rintro (rfl | ⟨hlast, heven⟩)
    · exact ⟨⟨[]⟩, decodeInto_nil ⟨[]⟩⟩
    · exact ⟨_, decode_eq_ok_iff.mpr ⟨heven, .inr hlast, rfl⟩⟩
  · intro m hm
    obtain ⟨heven, hclosed, rfl⟩ := decode_eq_ok_iff.mp hm
    exact ⟨flatMap_rawPairs d heven hclosed, not_mem_of_mem_rawPairs d,
      get?_foldl_addPair (rawPairs d)⟩
  · exact ⟨hs.inStep, hs.inStep.round_eq_ok_iff⟩

/-- A pair of an empty key, a key that is there twice, and a value that is not
ended. -/
theorem decode_pairs_repeated_and_open :
    (∃ m, decode [0, 0x61, 0, 0x6b, 0, 0, 0x6b, 0, 0x62, 0] = .ok m ∧ m.get? "k" = some "b") ∧
      decode [0x6b, 0, 0x62] = .error .metaValue := by
  refine ⟨?_, ?_⟩
  · obtain ⟨haccepts, hpairs, -⟩ := decode_pairs [0, 0x61, 0, 0x6b, 0, 0, 0x6b, 0, 0x62, 0]
    obtain ⟨m, hm⟩ := haccepts.mpr (.inr ⟨rfl, rfl⟩)
    refine ⟨m, hm, ((hpairs m hm).2.2 "k" "b").mpr
      ⟨[([], [0x61]), ([0x6b], [])], ([0x6b], [0x62]), [], rfl, ?_, ?_, nofun⟩⟩
    · decide
    · decide
  · obtain ⟨haccepts, -, hfails, -⟩ := decode_pairs [0x6b, 0, 0x62]
    cases h : decode [0x6b, 0, 0x62] with
    | ok m =>
      have hnot := haccepts.mp ⟨m, h⟩
      simp at hnot
    | error e => rw [hfails e h]; rfl

end MetaInfo
end Profiler
