/-
# Records leave the reordering buffer in order

A buffer is filled with records and emptied one by one or as a whole, in any
interleaving. Every record that was put in is either held or has been given
out, once (`Reorder.Keeps`), and what is given out is the earliest of what is
held, by time, samples last, and arrival (`HeldRecord.IsEarliest`). A record
goes when enough are held and it is older than the newest by the set
difference (`Reorder.Keeps.isSome_pop_iff`).

What comes later than that difference allows may be out of order. If no record
does, the times of what is given out never decrease: whatever is still to come
is no earlier than what has gone (`Reorder.Timely`).

Key definitions: `ReorderKey.rank`, `HeldRecord.IsEarliest`, `Reorder.Op`,
`Reorder.entries`, `Reorder.Keeps`, `Reorder.InTime`, `Reorder.Timely`.
Key theorems: `Reorder.Op.keeps_run`, `Reorder.foldl_run_conserves`,
`Reorder.Op.timely_run`, `Reorder.foldl_run_ascending`.
-/
import Mathlib.Data.List.Induction
import Mathlib.Data.Prod.Lex
import Mathlib.Order.MinMax
import Profiler.Record.Reorder

namespace Profiler

/-! ### The order of the keys -/

/-- Keys are ordered by time, then samples last, then by arrival. -/
def ReorderKey.rank (k : ReorderKey) : ℕ ×ₗ Bool ×ₗ ℕ :=
  toLex (k.time.toNat, toLex (k.isSample, k.arrival))

theorem ReorderKey.before_iff {a b : ReorderKey} : a.before b = true ↔ a.rank < b.rank := by
  have htime : a.time = b.time ↔ a.time.toNat = b.time.toNat := UInt64.toNat_inj.symm
  simp only [before, rank, Bool.or_eq_true, Bool.and_eq_true, decide_eq_true_eq, beq_iff_eq,
    Prod.Lex.toLex_lt_toLex, Bool.lt_iff, Bool.not_eq_true', UInt64.lt_iff_toNat_lt, htime]

theorem ReorderKey.time_le_of_rank_le {a b : ReorderKey} (h : a.rank ≤ b.rank) :
    a.time.toNat ≤ b.time.toNat := by
  rcases Prod.Lex.toLex_le_toLex.mp h with hlt | ⟨heq, -⟩
  · exact Nat.le_of_lt hlt
  · exact Nat.le_of_eq heq

/-- Of some records, the one whose key goes first. -/
def HeldRecord.IsEarliest (e : HeldRecord) (es : List HeldRecord) : Prop :=
  e ∈ es ∧ ∀ x ∈ es, e.key.rank ≤ x.key.rank

namespace Reorder

/-! ### What may be done to a buffer -/

inductive Op where
  | push (r : Record)
  | pop
  | popAll
  deriving Repr

/-- The records that have been given out, and the buffer, after one step more. -/
def Op.run (s : List Record × Reorder) : Op → List Record × Reorder
  | push r => (s.1, s.2.push r)
  | pop => match s.2.pop with
    | some (r, q) => (s.1 ++ [r], q)
    | none => s
  | popAll => (s.1 ++ s.2.popAll.1, s.2.popAll.2)

def pushed (ops : List Op) : List Record :=
  ops.filterMap fun
    | .push r => some r
    | _ => none

def entries (rs : List Record) : List HeldRecord :=
  rs.mapIdx fun i r => ⟨⟨r.timestamp, r.isSample, i⟩, r⟩

theorem pushed_append (ops ops' : List Op) : pushed (ops ++ ops') = pushed ops ++ pushed ops' :=
  List.filterMap_append

theorem entries_append (rs : List Record) (r : Record) :
    entries (rs ++ [r]) = entries rs ++ [⟨⟨r.timestamp, r.isSample, rs.length⟩, r⟩] := by
  simp [entries, List.mapIdx_append]

theorem mem_entries {rs : List Record} {e : HeldRecord} (h : e ∈ entries rs) :
    e.record ∈ rs ∧ e.key.time = e.record.timestamp := by
  obtain ⟨i, hi, rfl⟩ := List.mem_mapIdx.mp h
  exact ⟨List.getElem_mem hi, rfl⟩

/-! ### A place in the order -/

section Insertion

variable {e : HeldRecord} {es : List HeldRecord}

theorem insert_perm (e : HeldRecord) (es : List HeldRecord) : (insert e es).Perm (e :: es) := by
  induction es with
  | nil => rfl
  | cons x rest ih =>
    rw [insert]
    split
    · rfl
    · exact (ih.cons x).trans (.swap e x rest)

theorem pairwise_insert (h : es.Pairwise fun a b => a.key.rank ≤ b.key.rank) :
    (insert e es).Pairwise fun a b => a.key.rank ≤ b.key.rank := by
  induction es with
  | nil => exact List.pairwise_singleton _ e
  | cons x rest ih =>
    obtain ⟨hx, hrest⟩ := List.pairwise_cons.mp h
    rw [insert]
    split
    · next hbefore =>
      have hle : e.key.rank ≤ x.key.rank := (ReorderKey.before_iff.mp hbefore).le
      refine List.pairwise_cons.mpr ⟨fun y hy => ?_, h⟩
      rcases List.mem_cons.mp hy with rfl | hy
      · exact hle
      · exact hle.trans (hx y hy)
    · next hnot =>
      have hle : x.key.rank ≤ e.key.rank :=
        not_lt.mp fun hlt => hnot (ReorderKey.before_iff.mpr hlt)
      refine List.pairwise_cons.mpr ⟨fun y hy => ?_, ih hrest⟩
      rcases List.mem_cons.mp ((insert_perm e rest).mem_iff.mp hy) with rfl | hy
      · exact hle
      · exact hx y hy

end Insertion

/-! ### What the buffer holds -/

/-- The records `rs` were put in, `returned` were given out, and the others are
held in order. -/
structure Keeps (rs returned : List Record) (q : Reorder) : Prop where
  arrivals : q.arrivals = rs.length
  newest : q.hasTimestamp = true → ∀ t, 0 < t →
    (t ≤ q.newest.toNat ↔ ∃ r ∈ rs, t ≤ r.timestamp.toNat)
  once : ∃ gone : List HeldRecord, gone.map HeldRecord.record = returned ∧
    (gone ++ q.held).Perm (entries rs)
  ordered : q.held.Pairwise fun a b => a.key.rank ≤ b.key.rank

section Keeps

variable {rs returned : List Record} {q q' : Reorder} {r : Record}

/-- One pop takes the first of the records held, if it is due and enough are
held. -/
theorem pop_eq_some_iff : q.pop = some (r, q') ↔ q.minSize ≤ q.held.length ∧
    ∃ e rest, q.held = e :: rest ∧ q.isDue e.key.time = true ∧ e.record = r ∧
      { q with held := rest } = q' := by
  rw [pop]
  split
  · next hsmall => simp [Nat.not_le.mpr hsmall]
  · next henough =>
    have hle := Nat.not_lt.mp henough
    cases hheld : q.held with
    | nil => simp
    | cons e rest =>
      rw [hheld] at hle
      by_cases hdue : q.isDue e.key.time = true
      · simpa [hdue] using fun _ _ => hle
      · simp [hdue]

theorem Keeps.isEarliest (h : Keeps rs returned q) {e : HeldRecord} {rest : List HeldRecord}
    (hheld : q.held = e :: rest) : e.IsEarliest q.held := by
  have hordered := h.ordered
  rw [hheld] at hordered ⊢
  refine ⟨List.mem_cons_self, fun x hx => ?_⟩
  rcases List.mem_cons.mp hx with rfl | hx
  · exact le_refl _
  · exact (List.pairwise_cons.mp hordered).1 x hx

theorem Keeps.mem_of_held (h : Keeps rs returned q) {e : HeldRecord} (he : e ∈ q.held) :
    e.record ∈ rs ∧ e.key.time = e.record.timestamp := by
  obtain ⟨gone, -, hperm⟩ := h.once
  exact mem_entries (hperm.mem_iff.mp (List.mem_append_right gone he))

theorem Keeps.isDue_iff (h : Keeps rs returned q) {e : HeldRecord} (he : e ∈ q.held) :
    q.isDue e.key.time = true ↔ (q.hasTimestamp = true → ∃ r ∈ rs,
      min (e.key.time.toNat + q.minDifference.toNat) (UInt64.size - 1) ≤ r.timestamp.toNat) := by
  by_cases hstamp : q.hasTimestamp = true
  · have hnewest := h.newest hstamp
    simp only [isDue, hstamp, Bool.not_true, Bool.false_or, decide_eq_true_eq, forall_const]
    rcases Nat.eq_zero_or_pos
      (min (e.key.time.toNat + q.minDifference.toNat) (UInt64.size - 1)) with hzero | hpos
    · rw [hzero]
      exact iff_of_true (Nat.zero_le _) ⟨e.record, (h.mem_of_held he).1, Nat.zero_le _⟩
    · exact hnewest _ hpos
  · simp [isDue, hstamp]

/-- **What a pop takes is the earliest record.** -/
theorem Keeps.of_pop (h : Keeps rs returned q) (hpop : q.pop = some (r, q')) :
    ∃ e : HeldRecord, e.IsEarliest q.held ∧ e.record = r ∧ q.held.Perm (e :: q'.held) := by
  obtain ⟨-, e, rest, hheld, -, rfl, rfl⟩ := pop_eq_some_iff.mp hpop
  exact ⟨e, h.isEarliest hheld, rfl, hheld ▸ .rfl⟩

/-- **When a pop takes a record.** -/
theorem Keeps.isSome_pop_iff (h : Keeps rs returned q) :
    q.pop.isSome = true ↔ q.minSize ≤ q.held.length ∧ ∃ e : HeldRecord, e.IsEarliest q.held ∧
      (q.hasTimestamp = true → ∃ r ∈ rs,
        min (e.key.time.toNat + q.minDifference.toNat) (UInt64.size - 1) ≤ r.timestamp.toNat) := by
  rw [Option.isSome_iff_exists]
  constructor
  · rintro ⟨⟨r, q'⟩, hpop⟩
    obtain ⟨hle, e, rest, hheld, hdue, -, -⟩ := pop_eq_some_iff.mp hpop
    have he := h.isEarliest hheld
    exact ⟨hle, e, he, (h.isDue_iff he.1).mp hdue⟩
  · rintro ⟨hle, e, he, hold⟩
    obtain ⟨x, rest, hheld⟩ := List.exists_cons_of_ne_nil (List.ne_nil_of_mem he.1)
    have hx := h.isEarliest hheld
    -- records of one key have one time, so either of them being due is enough
    have htime : x.key.rank = e.key.rank := le_antisymm (hx.2 e he.1) (he.2 x hx.1)
    have hsame : x.key.time.toNat = e.key.time.toNat := congrArg (fun k => (ofLex k).1) htime
    refine ⟨_, pop_eq_some_iff.mpr ⟨hle, x, rest, hheld, ?_, rfl, rfl⟩⟩
    rw [h.isDue_iff hx.1, hsame]
    exact hold

/-- **One step keeps what is known of a buffer.** -/
theorem Op.keeps_run {s : List Record × Reorder} (h : Keeps rs s.1 s.2) (op : Op) :
    Keeps (rs ++ pushed [op]) (op.run s).1 (op.run s).2 := by
  obtain ⟨returned, q⟩ := s
  obtain ⟨gone, hgone, hperm⟩ := h.once
  cases op with
  | push r =>
    have hpushed : pushed [push r] = [r] := rfl
    refine ⟨?_, fun hstamp t ht => ?_, ⟨gone, hgone, ?_⟩, pairwise_insert h.ordered⟩
    · rw [hpushed, List.length_append, List.length_singleton, ← h.arrivals]
      rfl
    · have hnewest := h.newest hstamp t ht
      have hnow : ((q.push r).newest.toNat) = max q.newest.toNat r.timestamp.toNat := by
        have hstamp : q.hasTimestamp = true := hstamp
        simp only [Reorder.push, hstamp, Bool.true_and, decide_eq_true_eq,
          UInt64.lt_iff_toNat_lt]
        split <;> omega
      show t ≤ (q.push r).newest.toNat ↔ _
      rw [hnow, hpushed, le_max_iff, hnewest]
      simp [List.mem_append, or_and_right, exists_or]
    · rw [hpushed, entries_append, ← h.arrivals]
      show (gone ++ insert _ q.held).Perm _
      refine ((insert_perm _ _).append_left gone).trans (List.perm_middle.trans ?_)
      exact ((hperm.cons _).trans (List.perm_append_singleton _ _).symm)
  | pop =>
    have hnone : pushed [pop] = [] := rfl
    rw [hnone, List.append_nil]
    cases hpop : q.pop with
    | none =>
      rw [run, hpop]
      exact h
    | some p =>
      obtain ⟨r, q'⟩ := p
      obtain ⟨-, e, rest, hheld, -, rfl, rfl⟩ := pop_eq_some_iff.mp hpop
      rw [run, hpop]
      have hordered := h.ordered
      rw [hheld] at hperm hordered
      refine ⟨h.arrivals, h.newest, ⟨gone ++ [e], ?_, ?_⟩, (List.pairwise_cons.mp hordered).2⟩
      · rw [List.map_append, hgone]
        rfl
      · rw [List.append_assoc]
        exact hperm
  | popAll =>
    have hnone : pushed [popAll] = [] := rfl
    rw [hnone, List.append_nil]
    refine ⟨h.arrivals, h.newest, ⟨gone ++ q.held, ?_, ?_⟩, .nil⟩
    · rw [List.map_append, hgone]
      rfl
    · exact (List.append_nil _).symm ▸ hperm

end Keeps

theorem Op.settings_run (s : List Record × Reorder) (op : Op) :
    (op.run s).2.hasTimestamp = s.2.hasTimestamp ∧ (op.run s).2.minSize = s.2.minSize ∧
      (op.run s).2.minDifference = s.2.minDifference := by
  cases op with
  | push r => exact ⟨rfl, rfl, rfl⟩
  | pop =>
    cases hpop : s.2.pop with
    | none => rw [run, hpop]; exact ⟨rfl, rfl, rfl⟩
    | some p =>
      obtain ⟨-, e, rest, -, -, -, hq⟩ :=
        pop_eq_some_iff.mp (show s.2.pop = some (p.1, p.2) from hpop)
      rw [run, hpop, ← hq]
      exact ⟨rfl, rfl, rfl⟩
  | popAll => exact ⟨rfl, rfl, rfl⟩

/-! ### Records that are not too late -/

/-- No record is further behind one before it than a difference. -/
def InTime (difference : UInt64) (rs : List Record) : Prop :=
  rs.Pairwise fun r s => r.timestamp.toNat ≤ s.timestamp.toNat + difference.toNat

/-- What was given out is in order of time, and neither a record that is held
nor one that is still to come in time goes before it. -/
structure Timely (rs returned : List Record) (q : Reorder) : Prop where
  ascending : returned.Pairwise fun r s => r.timestamp.toNat ≤ s.timestamp.toNat
  behind : ∀ r ∈ returned, ∀ e ∈ q.held, r.timestamp.toNat ≤ e.key.time.toNat
  passed : ∀ r ∈ returned, ∃ s ∈ rs,
    r.timestamp.toNat + q.minDifference.toNat ≤ s.timestamp.toNat

section Timely

variable {rs returned : List Record} {q : Reorder}

/-- What is held can go out after what is gone. -/
theorem Timely.ascending_append (ht : Timely rs returned q) (hk : Keeps rs returned q)
    {es : List HeldRecord} (hes : es.Sublist q.held) :
    (returned ++ es.map HeldRecord.record).Pairwise fun r s =>
      r.timestamp.toNat ≤ s.timestamp.toNat := by
  have htime : ∀ e ∈ es, e.key.time = e.record.timestamp := fun e he =>
    (hk.mem_of_held (hes.subset he)).2
  refine List.pairwise_append.mpr ⟨ht.ascending, ?_, fun r hr s hs => ?_⟩
  · rw [List.pairwise_map]
    refine (hk.ordered.sublist hes).imp_of_mem fun {a b} ha hb hle => ?_
    rw [← htime a ha, ← htime b hb]
    exact ReorderKey.time_le_of_rank_le hle
  · obtain ⟨e, he, rfl⟩ := List.mem_map.mp hs
    rw [← htime e he]
    exact ht.behind r hr e (hes.subset he)

/-- **A step keeps what is given out in order**, as long as what comes in is in
time. -/
theorem Op.timely_run {s : List Record × Reorder} (hk : Keeps rs s.1 s.2)
    (ht : Timely rs s.1 s.2) (hstamp : s.2.hasTimestamp = true) {op : Op} (hop : op ≠ popAll)
    (hroom : ∀ r ∈ rs, r.timestamp.toNat + s.2.minDifference.toNat < UInt64.size)
    (hin : ∀ r ∈ rs, ∀ x ∈ pushed [op],
      r.timestamp.toNat ≤ x.timestamp.toNat + s.2.minDifference.toNat) :
    Timely (rs ++ pushed [op]) (op.run s).1 (op.run s).2 := by
  obtain ⟨returned, q⟩ := s
  cases op with
  | push x =>
    refine ⟨ht.ascending, fun r hr e he => ?_, fun r hr => ?_⟩
    · rcases List.mem_cons.mp ((insert_perm _ _).mem_iff.mp he) with rfl | he
      · -- a newer record let `r` go, and `x` is not later than that one allows
        obtain ⟨y, hy, hle⟩ := ht.passed r hr
        exact Nat.le_of_add_le_add_right (hle.trans (hin y hy x List.mem_cons_self))
      · exact ht.behind r hr e he
    · obtain ⟨y, hy, hle⟩ := ht.passed r hr
      exact ⟨y, List.mem_append_left _ hy, hle⟩
  | pop =>
    have hnone : pushed [pop] = [] := rfl
    rw [hnone, List.append_nil]
    cases hpop : q.pop with
    | none =>
      rw [run, hpop]
      exact ht
    | some p =>
      obtain ⟨r, q'⟩ := p
      obtain ⟨-, e, rest, hheld, hdue, rfl, rfl⟩ := pop_eq_some_iff.mp hpop
      rw [run, hpop]
      have he : e ∈ q.held := hheld ▸ List.mem_cons_self
      obtain ⟨hmem, htime⟩ := hk.mem_of_held he
      have hsub : List.Sublist [e] q.held := hheld ▸ (List.nil_sublist rest).cons_cons e
      refine ⟨ht.ascending_append hk hsub, fun x hx y hy => ?_, fun x hx => ?_⟩
      · have hy' : y ∈ q.held := hheld ▸ List.mem_cons_of_mem e hy
        rcases List.mem_append.mp hx with hx | hx
        · exact ht.behind x hx y hy'
        · obtain rfl := List.mem_singleton.mp hx
          rw [← htime]
          exact ReorderKey.time_le_of_rank_le ((hk.isEarliest hheld).2 y hy')
      · rcases List.mem_append.mp hx with hx | hx
        · exact ht.passed x hx
        · obtain rfl := List.mem_singleton.mp hx
          obtain ⟨s, hs, hle⟩ := (hk.isDue_iff he).mp hdue hstamp
          have hfits : e.record.timestamp.toNat + q.minDifference.toNat ≤ UInt64.size - 1 :=
            Nat.le_sub_one_of_lt (hroom _ hmem)
          rw [htime, Nat.min_eq_left hfits] at hle
          exact ⟨s, hs, hle⟩
  | popAll => exact absurd rfl hop

end Timely

/-! ### Runs -/

section Runs

variable (hasTimestamp : Bool) (minSize : ℕ) (minDifference : UInt64)

theorem keeps_foldl_run (ops : List Op) :
    let s := ops.foldl Op.run ([], { hasTimestamp, minSize, minDifference })
    Keeps (pushed ops) s.1 s.2 ∧ s.2.hasTimestamp = hasTimestamp ∧ s.2.minSize = minSize ∧
      s.2.minDifference = minDifference := by
  induction ops using List.reverseRecOn with
  | nil =>
    exact ⟨⟨rfl, fun _ t ht => by simp [pushed, Nat.ne_of_gt ht], ⟨[], rfl, .nil⟩, .nil⟩,
      rfl, rfl, rfl⟩
  | append_singleton ops op ih =>
    obtain ⟨hkeeps, hstamp, hsize, hdiff⟩ := ih
    obtain ⟨hstamp', hsize', hdiff'⟩ := op.settings_run _
    simp only [List.foldl_append, List.foldl_cons, List.foldl_nil, pushed_append]
    exact ⟨op.keeps_run hkeeps, hstamp'.trans hstamp, hsize'.trans hsize, hdiff'.trans hdiff⟩

/-- **Every record leaves once, the earliest first.** -/
theorem foldl_run_conserves (ops : List Op) :
    let s := ops.foldl Op.run ([], { hasTimestamp, minSize, minDifference })
    (∃ gone : List HeldRecord, gone.map HeldRecord.record = s.1 ∧
      (gone ++ s.2.held).Perm (entries (pushed ops))) ∧
    (∀ r q, s.2.pop = some (r, q) →
      ∃ e : HeldRecord, e.IsEarliest s.2.held ∧ e.record = r ∧ s.2.held.Perm (e :: q.held)) ∧
    (s.2.pop.isSome = true ↔ minSize ≤ s.2.held.length ∧ ∃ e : HeldRecord,
      e.IsEarliest s.2.held ∧ (hasTimestamp = true → ∃ r ∈ pushed ops,
        min (e.key.time.toNat + minDifference.toNat) (UInt64.size - 1) ≤ r.timestamp.toNat)) ∧
    ∃ es : List HeldRecord, s.2.popAll.1 = es.map HeldRecord.record ∧ es.Perm s.2.held ∧
      es.Pairwise (fun a b => a.key.rank ≤ b.key.rank) ∧ s.2.popAll.2.held = [] := by
  intro s
  obtain ⟨hkeeps, hstamp, hsize, hdiff⟩ := keeps_foldl_run hasTimestamp minSize minDifference ops
  refine ⟨hkeeps.once, fun r q hpop => hkeeps.of_pop hpop, ?_,
    s.2.held, rfl, .rfl, hkeeps.ordered, rfl⟩
  have hpop := hkeeps.isSome_pop_iff
  rwa [hstamp, hsize, hdiff] at hpop

/-- What steps other than the last leave of an empty buffer, if nothing comes
too late. -/
theorem timely_foldl_run {ops : List Op} (hops : Op.popAll ∉ ops)
    (hroom : ∀ r ∈ pushed ops, r.timestamp.toNat + minDifference.toNat < UInt64.size)
    (hin : InTime minDifference (pushed ops)) :
    let s := ops.foldl Op.run ([], { hasTimestamp := true, minSize, minDifference })
    Timely (pushed ops) s.1 s.2 := by
  induction ops using List.reverseRecOn with
  | nil => exact ⟨.nil, by rintro r ⟨⟩, by rintro r ⟨⟩⟩
  | append_singleton ops op ih =>
    rw [pushed_append] at hroom hin
    obtain ⟨hbefore, -, hnow⟩ := List.pairwise_append.mp hin
    obtain ⟨hkeeps, hstamp, -, hdiff⟩ := keeps_foldl_run true minSize minDifference ops
    rw [List.mem_append, not_or] at hops
    have hroom' := fun r hr => hroom r (List.mem_append_left _ hr)
    rw [← hdiff] at hroom' hnow
    simp only [List.foldl_append, List.foldl_cons, List.foldl_nil, pushed_append]
    exact Op.timely_run hkeeps (ih hops.1 (hdiff ▸ hroom') hbefore) hstamp
      (fun h => hops.2 (h ▸ List.mem_singleton_self op)) hroom' hnow

/-- **What is not too late leaves in order of time.** -/
theorem foldl_run_ascending {ops : List Op} (hops : Op.popAll ∉ ops)
    (hroom : ∀ r ∈ pushed ops, r.timestamp.toNat + minDifference.toNat < UInt64.size)
    (hin : InTime minDifference (pushed ops)) :
    ((ops ++ [Op.popAll]).foldl Op.run
      ([], { hasTimestamp := true, minSize, minDifference })).1.Pairwise fun r s =>
        r.timestamp.toNat ≤ s.timestamp.toNat := by
  rw [List.foldl_append]
  exact (timely_foldl_run minSize minDifference hops hroom hin).ascending_append
    (keeps_foldl_run true minSize minDifference ops).1 (List.Sublist.refl _)

/-- A record that comes late, but in time, goes before one that is held. -/
theorem foldl_run_ascending_late :
    let sampleAt (time : UInt64) : Record := .sample { time }
    let ops : List Op :=
      [.push (sampleAt 100), .push (sampleAt 115), .push (sampleAt 110), .pop, .push (sampleAt 105)]
    (Op.popAll ∉ ops ∧
      (∀ r ∈ pushed ops, r.timestamp.toNat + (10 : UInt64).toNat < UInt64.size) ∧
      InTime 10 (pushed ops)) ∧
    ((ops ++ [Op.popAll]).foldl Op.run
        ([], { hasTimestamp := true, minSize := 1, minDifference := 10 })).1 =
      [sampleAt 100, sampleAt 105, sampleAt 110, sampleAt 115] ∧
    [sampleAt 100, sampleAt 105, sampleAt 110, sampleAt 115].Pairwise fun r s =>
      r.timestamp.toNat ≤ s.timestamp.toNat := by
  intro sampleAt ops
  have hops : Op.popAll ∉ ops := by simp [ops]
  have hroom : ∀ r ∈ pushed ops, r.timestamp.toNat + (10 : UInt64).toNat < UInt64.size := by decide
  have hin : InTime 10 (pushed ops) := by unfold InTime; decide
  have hrun : ((ops ++ [Op.popAll]).foldl Op.run
      ([], { hasTimestamp := true, minSize := 1, minDifference := 10 })).1 =
      [sampleAt 100, sampleAt 105, sampleAt 110, sampleAt 115] := by decide
  exact ⟨⟨hops, hroom, hin⟩, hrun, hrun ▸ foldl_run_ascending 1 10 hops hroom hin⟩

end Runs

end Reorder
end Profiler
