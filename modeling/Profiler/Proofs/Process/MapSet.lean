/-
# The live maps of an owner

Live maps do not overlap and are listed by their start (`MapSet.Live`). So an
address is looked up by its neighbour alone (`MapSet.find?_eq_some_iff`), and
what meets a stretch stands side by side, which is why one scan clears it
(`MapSet.clear_eq`). A piece that is left of a map says of its addresses what
the whole map said. From these, adding a map changes what is said of its own
addresses and of no others (`MapSet.find?_insert`).

Key definitions: `MapView`, `MapEntry.PieceOf`, `MapSet.Live`.
Key theorems: `MapSet.find?_eq_some_iff`, `MapSet.live_insert`,
`MapSet.find?_insert`.
-/
import Mathlib.Data.List.TakeWhile
import Profiler.Process.MapSet

namespace Profiler

theorem toNat_saturatingAdd (a b : UInt64) :
    (saturatingAdd a b).toNat = min (a.toNat + b.toNat) (UInt64.size - 1) := by
  have ha := a.toNat_lt
  have hb := b.toNat_lt
  have hsum : (a + b).toNat = (a.toNat + b.toNat) % UInt64.size := UInt64.toNat_add a b
  have hmax : (0xffffffffffffffff : UInt64).toNat = UInt64.size - 1 := rfl
  unfold saturatingAdd
  split
  · next h =>
    rw [UInt64.lt_iff_toNat_lt] at h
    simp only [UInt64.size] at *
    omega
  · next h =>
    rw [UInt64.lt_iff_toNat_lt] at h
    simp only [UInt64.size] at *
    omega

/-- What is known of an address that is mapped: the file with its owner and
time, and the place in the file. -/
structure MapView where
  filename : String
  time : UInt64
  pid : Pid
  fileOffset : UInt64
  deriving DecidableEq, Repr

namespace MapEntry

/-! ### Pieces of a map -/

/-- What a map says of an address. -/
def viewAt (m : MapEntry) (addr : UInt64) : MapView :=
  ⟨m.filename, m.time, m.pid, m.fileOffset addr⟩

variable {m p : MapEntry} {addr start stop : UInt64}

theorem toNat_stop (m : MapEntry) :
    m.stop.toNat = min (m.start.toNat + m.len.toNat) (UInt64.size - 1) :=
  toNat_saturatingAdd _ _

theorem start_le_stop (m : MapEntry) : m.start ≤ m.stop := by
  have hlt := m.start.toNat_lt
  have hstop := m.toNat_stop
  rw [UInt64.le_iff_toNat_le]
  simp only [UInt64.size] at *
  omega

theorem contains_iff : m.contains addr = true ↔ m.start ≤ addr ∧ addr < m.stop := by
  simp [contains]

theorem start_eq_of_empty (hlen : m.len ≠ 0) (h : m.stop ≤ m.start) :
    m.start.toNat = UInt64.size - 1 := by
  have hlt := m.start.toNat_lt
  have hstop := m.toNat_stop
  have hpos : m.len.toNat ≠ 0 := fun h0 => hlen (UInt64.toNat_inj.mp h0)
  rw [UInt64.le_iff_toNat_le] at h
  simp only [UInt64.size] at *
  omega

theorem stop_before (h : m.start ≤ addr) : (m.before addr).stop = addr := by
  have hlt := addr.toNat_lt
  have hstop := (m.before addr).toNat_stop
  rw [UInt64.le_iff_toNat_le] at h
  rw [before, UInt64.toNat_sub_of_le _ _ h] at hstop
  rw [← UInt64.toNat_inj, before, hstop]
  simp only [UInt64.size]
  omega

theorem stop_since (h : addr ≤ m.stop) : (m.since addr).stop = m.stop := by
  have hlt := m.stop.toNat_lt
  have hstop := (m.since addr).toNat_stop
  rw [UInt64.le_iff_toNat_le] at h
  rw [since, UInt64.toNat_sub_of_le _ _ h] at hstop
  rw [← UInt64.toNat_inj, since, hstop]
  simp only [UInt64.size]
  omega

/-- A part of a map that says of every address what the map says. -/
structure PieceOf (p m : MapEntry) : Prop where
  start_le : m.start ≤ p.start
  stop_le : p.stop ≤ m.stop
  viewAt_eq : ∀ addr, p.viewAt addr = m.viewAt addr

theorem PieceOf.refl (m : MapEntry) : m.PieceOf m :=
  ⟨UInt64.le_refl _, UInt64.le_refl _, fun _ => rfl⟩

theorem PieceOf.contains (h : p.PieceOf m) (hp : p.contains addr) : m.contains addr := by
  obtain ⟨hle, hlt⟩ := contains_iff.mp hp
  exact contains_iff.mpr ⟨UInt64.le_trans h.start_le hle, UInt64.lt_of_lt_of_le hlt h.stop_le⟩

/-- What is left of a map is a piece of it outside the stretch. -/
theorem pieceOf_of_mem_cut (hstart : m.start < stop) (hstop : start < m.stop)
    (h : p ∈ m.cut start stop) :
    p.PieceOf m ∧ p.start < p.stop ∧ (p.stop ≤ start ∨ stop ≤ p.start) := by
  rw [cut, List.mem_append] at h
  rcases h with h | h
  · split at h
    · next hbefore =>
      obtain rfl := List.mem_singleton.mp h
      have hend := stop_before (UInt64.le_of_lt hbefore)
      refine ⟨⟨UInt64.le_refl _, ?_, fun _ => rfl⟩, ?_, .inl (UInt64.le_of_eq hend)⟩
      · rw [hend]
        exact UInt64.le_of_lt hstop
      · rwa [hend]
    · cases h
  · split at h
    · next hsince =>
      obtain rfl := List.mem_singleton.mp h
      have hend := stop_since (UInt64.le_of_lt hsince)
      refine ⟨⟨UInt64.le_of_lt hstart, UInt64.le_of_eq hend, fun addr => ?_⟩, ?_,
        .inr (UInt64.le_refl _)⟩
      · have hoffset : (m.since stop).fileOffset addr = m.fileOffset addr := by
          simp only [fileOffset, since]
          grind
        rw [viewAt, hoffset]
        rfl
      · rwa [hend]
    · cases h

theorem exists_mem_cut (h : m.contains addr) (hout : addr < start ∨ stop ≤ addr) :
    ∃ p ∈ m.cut start stop, p.contains addr := by
  obtain ⟨hle, hlt⟩ := contains_iff.mp h
  rcases hout with hbelow | habove
  · have hbefore : m.start < start := UInt64.lt_of_le_of_lt hle hbelow
    refine ⟨m.before start, ?_, contains_iff.mpr ⟨hle, ?_⟩⟩
    · simp [cut, hbefore]
    · rwa [stop_before (UInt64.le_of_lt hbefore)]
  · have hsince : stop < m.stop := UInt64.lt_of_le_of_lt habove hlt
    refine ⟨m.since stop, ?_, contains_iff.mpr ⟨habove, ?_⟩⟩
    · simp [cut, hsince]
    · rwa [stop_since (UInt64.le_of_lt hsince)]

end MapEntry

namespace MapSet

open MapEntry

/-! ### Looking up an address -/

/-- The maps do not overlap and are listed by their start. -/
def Live (s : MapSet) : Prop := s.Pairwise fun a b => a.start < b.start ∧ a.stop ≤ b.start

variable {s : MapSet} {m p : MapEntry} {addr start stop : UInt64}

/-- **The neighbour below an address is the only map that can hold it.** -/
theorem find?_eq_some_iff (hs : s.Live) : s.find? addr = some m ↔ m ∈ s ∧ m.contains addr := by
  rw [find?, Option.filter_eq_some_iff]
  constructor
  · rintro ⟨hlast, hcontains⟩
    exact ⟨(List.takeWhile_sublist _).mem (List.mem_of_getLast? hlast), hcontains⟩
  · rintro ⟨hm, hcontains⟩
    obtain ⟨hle, hlt⟩ := contains_iff.mp hcontains
    obtain ⟨below, above, rfl⟩ := List.append_of_mem hm
    obtain ⟨-, habove, hbelow⟩ := List.pairwise_append.mp hs
    obtain ⟨habove, -⟩ := List.pairwise_cons.mp habove
    have htake : (below ++ m :: above).takeWhile (fun old => decide (old.start ≤ addr)) =
        below ++ [m] := by
      have hbelow' : ∀ old ∈ below, decide (old.start ≤ addr) = true := fun old hold =>
        decide_eq_true (UInt64.le_trans (UInt64.le_of_lt (hbelow old hold m List.mem_cons_self).1) hle)
      have habove' : above.takeWhile (fun old => decide (old.start ≤ addr)) = [] := by
        cases above with
        | nil => rfl
        | cons old rest =>
          have hfar := (habove old List.mem_cons_self).2
          exact List.takeWhile_cons_of_neg
            (by simpa using UInt64.lt_of_lt_of_le hlt hfar)
      have hself : decide (m.start ≤ addr) = true := decide_eq_true hle
      rw [List.takeWhile_append_of_pos hbelow', List.takeWhile_cons, hself, habove']
      rfl
    rw [htake, List.getLast?_concat]
    exact ⟨rfl, hcontains⟩

theorem Live.eq_of_contains (hs : s.Live) (hm : m ∈ s) (hp : p ∈ s) (hma : m.contains addr)
    (hpa : p.contains addr) : m = p :=
  Option.some.inj (((find?_eq_some_iff hs).mpr ⟨hm, hma⟩).symm.trans
    ((find?_eq_some_iff hs).mpr ⟨hp, hpa⟩))

/-! ### Clearing a stretch -/

/-- Where a test that fails once fails from there on, what it drops the list to
fails it throughout. -/
theorem not_of_mem_dropWhile {α : Type} {test : α → Bool} {l : List α}
    (hl : l.Pairwise fun a b => test b = true → test a = true) {a : α} (ha : a ∈ l.dropWhile test) :
    ¬ test a = true := by
  induction l with
  | nil => cases ha
  | cons b rest ih =>
    obtain ⟨hb, hrest⟩ := List.pairwise_cons.mp hl
    rw [List.dropWhile_cons] at ha
    split at ha
    · exact ih hrest ha
    · next hfails =>
      rcases List.mem_cons.mp ha with rfl | ha
      · exact hfails
      · exact fun hholds => hfails (hb a ha hholds)

/-- **What meets a stretch stands side by side.** The maps before it end before
the stretch, and those behind it begin behind the stretch. -/
theorem clear_eq (hs : s.Live) (start stop : UInt64) : ∃ apart met above : List MapEntry,
    s = apart ++ met ++ above ∧
      s.clear start stop = apart ++ met.flatMap (·.cut start stop) ++ above ∧
      (∀ m ∈ apart, m.stop ≤ start) ∧ (∀ m ∈ met, m.start < stop ∧ start < m.stop) ∧
      ∀ m ∈ above, stop ≤ m.start := by
  let front := s.takeWhile fun m => decide (m.start < stop)
  let apart := (front.reverse.dropWhile fun m => decide (start < m.stop)).reverse
  let met := (front.reverse.takeWhile fun m => decide (start < m.stop)).reverse
  let above := s.dropWhile fun m => decide (m.start < stop)
  have hfront : apart ++ met = front := by
    rw [← List.reverse_append, List.takeWhile_append_dropWhile, List.reverse_reverse]
  have hsplit : s = apart ++ met ++ above := by
    rw [hfront, List.takeWhile_append_dropWhile]
  refine ⟨apart, met, above, hsplit, rfl, fun m hm => ?_, fun m hm => ⟨?_, ?_⟩, fun m hm => ?_⟩
  · -- going down, no map reaches further than the one above it begins
    have hdown : front.reverse.Pairwise fun a b =>
        decide (start < b.stop) = true → decide (start < a.stop) = true := by
      rw [List.pairwise_reverse]
      refine (hs.sublist (List.takeWhile_sublist _)).imp fun {a b} hab hreach => ?_
      have hle := UInt64.le_trans hab.2 b.start_le_stop
      exact decide_eq_true (UInt64.lt_of_lt_of_le (of_decide_eq_true hreach) hle)
    have hfails := not_of_mem_dropWhile hdown (List.mem_reverse.mp hm)
    exact UInt64.not_lt.mp fun h => hfails (decide_eq_true h)
  · have hmem : m ∈ front := hfront ▸ List.mem_append_right apart hm
    exact of_decide_eq_true (List.mem_takeWhile_imp (p := fun m : MapEntry => decide (m.start < stop)) hmem)
  · have hmem := List.mem_reverse.mp hm
    exact of_decide_eq_true (List.mem_takeWhile_imp (p := fun m : MapEntry => decide (start < m.stop)) hmem)
  · have hup : s.Pairwise fun a b =>
        decide (b.start < stop) = true → decide (a.start < stop) = true :=
      hs.imp fun hab hlt => decide_eq_true (UInt64.lt_trans hab.1 (of_decide_eq_true hlt))
    exact UInt64.not_lt.mp fun h => not_of_mem_dropWhile hup hm (decide_eq_true h)

theorem pieceOf_of_mem_clear (hs : s.Live) (h : p ∈ s.clear start stop) :
    (p.stop ≤ start ∨ stop ≤ p.start) ∧ ∃ m ∈ s, p.PieceOf m := by
  obtain ⟨apart, met, above, rfl, hclear, hapart, hmet, habove⟩ := clear_eq hs start stop
  rw [hclear, List.mem_append, List.mem_append] at h
  rcases h with (h | h) | h
  · exact ⟨.inl (hapart p h), p, by simp [h], .refl p⟩
  · obtain ⟨m, hm, hp⟩ := List.mem_flatMap.mp h
    obtain ⟨hpiece, -, hout⟩ := pieceOf_of_mem_cut (hmet m hm).1 (hmet m hm).2 hp
    exact ⟨hout, m, by simp [hm], hpiece⟩
  · exact ⟨.inr (habove p h), p, by simp [h], .refl p⟩

/-- Outside the stretch no address is lost. -/
theorem exists_mem_clear (hs : s.Live) (hm : m ∈ s) (h : m.contains addr)
    (hout : addr < start ∨ stop ≤ addr) : ∃ p ∈ s.clear start stop, p.contains addr := by
  obtain ⟨apart, met, above, rfl, hclear, -, -, -⟩ := clear_eq hs start stop
  rw [hclear]
  rw [List.mem_append, List.mem_append] at hm
  rcases hm with (hm | hm) | hm
  · exact ⟨m, by simp [hm], h⟩
  · obtain ⟨p, hp, hpa⟩ := exists_mem_cut h hout
    exact ⟨p, by simp only [List.mem_append, List.mem_flatMap]; exact .inl (.inr ⟨m, hm, hp⟩), hpa⟩
  · exact ⟨m, by simp [hm], h⟩

theorem live_cut (m : MapEntry) (h : start ≤ stop) : Live (m.cut start stop) := by
  unfold cut
  split
  · next hbefore =>
    split
    · next hsince =>
      have hend := stop_before (UInt64.le_of_lt hbefore)
      refine List.pairwise_pair.mpr ⟨UInt64.lt_of_lt_of_le hbefore h, ?_⟩
      rw [hend]
      exact h
    · exact List.pairwise_singleton _ _
  · split
    · exact List.pairwise_singleton _ _
    · exact List.Pairwise.nil

/-- **Clearing a stretch keeps the maps apart and in order.** -/
theorem live_clear (hs : s.Live) (h : start ≤ stop) : Live (s.clear start stop) := by
  obtain ⟨apart, met, above, rfl, hclear, -, hmet, -⟩ := clear_eq hs start stop
  obtain ⟨hfront, habove, hacross⟩ := List.pairwise_append.mp hs
  obtain ⟨hapart, hmets, hinner⟩ := List.pairwise_append.mp hfront
  have hpiece : ∀ m ∈ met, ∀ p ∈ m.cut start stop, p.PieceOf m ∧ p.start < p.stop := by
    intro m hm p hp
    obtain ⟨hpiece, hlt, -⟩ := pieceOf_of_mem_cut (hmet m hm).1 (hmet m hm).2 hp
    exact ⟨hpiece, hlt⟩
  have hcuts : Live (met.flatMap (·.cut start stop)) := by
    refine List.pairwise_flatMap.mpr ⟨fun m _ => live_cut m h, ?_⟩
    refine hmets.imp_of_mem fun {m m'} hm hm' hmm' p hp p' hp' => ?_
    obtain ⟨hpm, hlt⟩ := hpiece m hm p hp
    obtain ⟨hpm', -⟩ := hpiece m' hm' p' hp'
    have hle := UInt64.le_trans hpm.stop_le (UInt64.le_trans hmm'.2 hpm'.start_le)
    exact ⟨UInt64.lt_of_lt_of_le hlt hle, hle⟩
  rw [hclear]
  refine List.pairwise_append.mpr ⟨List.pairwise_append.mpr ⟨hapart, hcuts, ?_⟩, habove, ?_⟩
  · intro a ha p hp
    obtain ⟨m, hm, hp⟩ := List.mem_flatMap.mp hp
    have ham := hinner a ha m hm
    have hle := (hpiece m hm p hp).1.start_le
    exact ⟨UInt64.lt_of_lt_of_le ham.1 hle, UInt64.le_trans ham.2 hle⟩
  · intro p hp b hb
    rcases List.mem_append.mp hp with hp | hp
    · exact hacross p (List.mem_append_left met hp) b hb
    · obtain ⟨m, hm, hp⟩ := List.mem_flatMap.mp hp
      obtain ⟨hpm, hlt⟩ := hpiece m hm p hp
      have hle := UInt64.le_trans hpm.stop_le (hacross m (List.mem_append_right apart hm) b hb).2
      exact ⟨UInt64.lt_of_lt_of_le hlt hle, hle⟩

/-! ### Adding a map -/

theorem mem_place_self (m : MapEntry) (s : MapSet) : m ∈ place m s := by
  induction s with
  | nil => exact List.mem_singleton_self m
  | cons old rest ih =>
    rw [place]
    split
    · exact List.mem_cons_self
    · split
      · exact List.mem_cons_self
      · exact List.mem_cons_of_mem old ih

theorem eq_or_mem_of_mem_place (h : p ∈ place m s) : p = m ∨ p ∈ s := by
  induction s with
  | nil => exact .inl (List.mem_singleton.mp h)
  | cons old rest ih =>
    rw [place] at h
    split at h
    · exact List.mem_cons.mp h
    · split at h
      · exact (List.mem_cons.mp h).imp_right (List.mem_cons_of_mem old)
      · rcases List.mem_cons.mp h with rfl | h
        · exact .inr List.mem_cons_self
        · exact (ih h).imp_right (List.mem_cons_of_mem old)

/-- Only a map with the same start gives way. -/
theorem mem_place_of_mem (h : p ∈ s) (hne : p.start ≠ m.start) : p ∈ place m s := by
  induction s with
  | nil => cases h
  | cons old rest ih =>
    rw [place]
    split
    · exact List.mem_cons_of_mem m h
    · split
      · next heq =>
        rcases List.mem_cons.mp h with rfl | h
        · exact absurd heq.symm hne
        · exact List.mem_cons_of_mem m h
      · rcases List.mem_cons.mp h with rfl | h
        · exact List.mem_cons_self
        · exact List.mem_cons_of_mem old (ih h)

/-- A map is placed among maps that lie outside it. -/
theorem live_place (hs : s.Live) (h : ∀ p ∈ s, p.stop ≤ m.start ∨ m.stop ≤ p.start) :
    Live (place m s) := by
  induction s with
  | nil => exact List.pairwise_singleton _ _
  | cons old rest ih =>
    obtain ⟨hold, hrest⟩ := List.pairwise_cons.mp hs
    have hrest' : ∀ p ∈ rest, p.stop ≤ m.start ∨ m.stop ≤ p.start := fun p hp =>
      h p (List.mem_cons_of_mem old hp)
    have habove : ∀ p ∈ old :: rest, m.start < p.start → m.start < p.start ∧ m.stop ≤ p.start := by
      intro p hp hlt
      refine ⟨hlt, (h p hp).resolve_left fun hle => ?_⟩
      exact UInt64.not_lt.mpr (UInt64.le_trans p.start_le_stop hle) hlt
    rw [place]
    split
    · next hlt =>
      refine List.pairwise_cons.mpr ⟨fun p hp => habove p hp ?_, hs⟩
      rcases List.mem_cons.mp hp with rfl | hp
      · exact hlt
      · exact UInt64.lt_trans hlt (hold p hp).1
    · split
      · next heq =>
        refine List.pairwise_cons.mpr ⟨fun p hp => ?_, hrest⟩
        exact habove p (List.mem_cons_of_mem old hp) (heq ▸ (hold p hp).1)
      · next hge hne =>
        have hlt : old.start < m.start :=
          UInt64.lt_of_le_of_ne (UInt64.not_lt.mp hge) (Ne.symm hne)
        refine List.pairwise_cons.mpr ⟨fun p hp => ?_, ih hrest hrest'⟩
        rcases eq_or_mem_of_mem_place hp with rfl | hp
        · refine ⟨hlt, (h old List.mem_cons_self).resolve_right fun hle => ?_⟩
          exact UInt64.not_lt.mpr (UInt64.le_trans p.start_le_stop hle) hlt
        · exact hold p hp

/-- **Adding a map keeps the maps apart and in order.** -/
theorem live_insert (hs : s.Live) (m : MapEntry) : Live (s.insert m) :=
  live_place (live_clear hs m.start_le_stop) fun _ hp => (pieceOf_of_mem_clear hs hp).1

theorem start_ne_of_apart (hlen : m.len ≠ 0) (hapart : p.stop ≤ m.start ∨ m.stop ≤ p.start)
    (hp : p.contains addr) : p.start ≠ m.start := by
  intro heq
  obtain ⟨hle, hlt⟩ := contains_iff.mp hp
  rcases hapart with h | h
  · rw [← heq] at h
    exact UInt64.not_lt.mpr (UInt64.le_trans h hle) hlt
  · rw [heq] at h hle
    have hmax := start_eq_of_empty hlen h
    have hstop := p.toNat_stop
    rw [UInt64.le_iff_toNat_le] at hle
    rw [UInt64.lt_iff_toNat_lt] at hlt
    omega

/-- **A new map answers for its own addresses, and the older ones answer for all
others as they did.** -/
theorem find?_insert (hs : s.Live) (hlen : m.len ≠ 0) (addr : UInt64) :
    ((s.insert m).find? addr).map (·.viewAt addr) =
      if m.contains addr then some (m.viewAt addr) else (s.find? addr).map (·.viewAt addr) := by
  have hlive := live_insert hs m
  split
  · next hm =>
    rw [(find?_eq_some_iff hlive).mpr ⟨mem_place_self m _, hm⟩]
    rfl
  · next hm =>
    have hout : addr < m.start ∨ m.stop ≤ addr := by
      rw [contains_iff, not_and_or, UInt64.not_le, UInt64.not_lt] at hm
      exact hm
    -- what is found before and after are pieces of one map, so both say the same
    cases hold : s.find? addr with
    | none =>
      cases hnew : (s.insert m).find? addr with
      | none => rfl
      | some p =>
        obtain ⟨hp, hpa⟩ := (find?_eq_some_iff hlive).mp hnew
        rcases eq_or_mem_of_mem_place hp with rfl | hp
        · exact absurd hpa hm
        · obtain ⟨-, old, hmem, hpiece⟩ := pieceOf_of_mem_clear hs hp
          rw [(find?_eq_some_iff hs).mpr ⟨hmem, hpiece.contains hpa⟩] at hold
          cases hold
    | some old =>
      obtain ⟨hmem, ha⟩ := (find?_eq_some_iff hs).mp hold
      obtain ⟨p, hp, hpa⟩ := exists_mem_clear hs hmem ha hout
      obtain ⟨hapart, old', hmem', hpiece⟩ := pieceOf_of_mem_clear hs hp
      obtain rfl := hs.eq_of_contains hmem hmem' ha (hpiece.contains hpa)
      have hne : p.start ≠ m.start := start_ne_of_apart hlen hapart hpa
      rw [(find?_eq_some_iff hlive).mpr ⟨mem_place_of_mem hp hne, hpa⟩, Option.map_some,
        Option.map_some, hpiece.viewAt_eq]

end MapSet
end Profiler
