/-
# The parts of a record, read as they are written

Each part that several records share, and each list with its number before it,
is read by a step that follows exactly what its encoder writes: one statement
for each part, by which the record layer uses it without opening it again.

Key theorems: `SampleId.follows_parse`, `ReadValues.follows_parse`,
`follows_parseBranches`, `follows_parseIdPairs`, `UserRegs.follows_parse`,
`UserStack.follows_parse`, `follows_parseBlob`.
-/
import Profiler.Proofs.Format
import Profiler.Proofs.Record.WellFormed
import Profiler.Record.Encode

namespace Profiler

open Format Parse

/-! ### The last part of a record -/

namespace SampleId

theorem has_eq {a : Attr} {s : SampleId} (hall : s.sampleIdAll = a.has .sampleIdAll)
    (htype : s.sampleType = a.sampleType) (f : SampleField) : (ofAttr a).has f = s.has f := by
  rw [has, has, hall, htype]
  rfl

theorem follows_parse (a : Attr) :
    Follows (SampleId.parse a) (written SampleId.encode (SampleId.WellFormed a)) := by
  refine Follows.congr
    (Follows.field SampleId.pid (fun _ _ => rfl) (follows_u32.whenSelected _ _) fun _ =>
    Follows.field SampleId.tid (fun _ _ => rfl) (follows_u32.whenSelected _ _) fun _ =>
    Follows.field SampleId.time (fun _ _ => rfl) (follows_u64.whenSelected _ _) fun _ =>
    Follows.field SampleId.id (fun _ _ => rfl) (follows_u64.whenSelected _ _) fun _ =>
    Follows.field SampleId.streamId (fun _ _ => rfl) (follows_u64.whenSelected _ _) fun _ =>
    Follows.field SampleId.cpu (fun _ _ => rfl) (follows_u32.whenSelected _ _) fun _ =>
    Follows.field SampleId.cpuReserved (fun _ _ => rfl) (follows_u32.whenSelected _ _) fun _ =>
    Follows.field SampleId.identifier (fun _ _ => rfl) (follows_u64.whenSelected _ _) fun _ =>
    Follows.built _) fun bs s => ?_
  simp only [selected_written, nothing_eq_written, written_andThen_written, if_true_left,
    Bool.not_eq_true, List.append_nil, and_true]
  constructor
  · rintro ⟨⟨hv, rfl⟩, hs⟩
    have hall : s.sampleIdAll = a.has .sampleIdAll := congrArg SampleId.sampleIdAll hs
    have htype : s.sampleType = a.sampleType := congrArg SampleId.sampleType hs
    simp only [has_eq hall htype] at hv ⊢
    obtain ⟨pid, tid, time, id, streamId, cpu, cpuReserved, identifier⟩ := hv
    exact ⟨⟨hall, htype, pid, tid, time, id, streamId, cpu, cpuReserved, identifier⟩,
      by simp only [encode, List.append_assoc]⟩
  · rintro ⟨⟨hall, htype, pid, tid, time, id, streamId, cpu, cpuReserved, identifier⟩, rfl⟩
    simp only [has_eq hall htype]
    refine ⟨⟨⟨pid, tid, time, id, streamId, cpu, cpuReserved, identifier⟩, ?_⟩, ?_⟩
    · simp only [encode, List.append_assoc]
    · rw [← show s.sampleIdAll = (ofAttr a).sampleIdAll from hall,
        ← show s.sampleType = (ofAttr a).sampleType from htype]

end SampleId

/-! ### Readings -/

theorem follows_parseCounter (fmt : ReadFormat) :
    Follows (parseCounter fmt)
      (written (encodeCounter fmt) fun c => fmt.has .id = false → c.2 = 0) := by
  refine Follows.congr
    (Follows.field Prod.fst (fun _ _ => rfl) follows_u64 fun _ =>
    Follows.field Prod.snd (fun _ _ => rfl) (follows_u64.whenSelected _ _) fun _ =>
    Follows.built _) fun bs c => ?_
  simp only [selected_written, nothing_eq_written, written_andThen_written, if_true_left,
    Bool.not_eq_true, List.append_nil, and_true, true_and]
  rfl

theorem ofNat_length_toNat {α : Type} {l : List α} (h : l.length < UInt64.size) :
    (UInt64.ofNat l.length).toNat = l.length := UInt64.toNat_ofNat_of_lt' h

theorem ReadValues.follows_parse_group {fmt : ReadFormat} (hgroup : fmt.has .group = true) :
    Follows (ReadValues.parse fmt) (written (ReadValues.encode fmt) fun v =>
      v.WellFormed fmt ∧ v.values.length < UInt64.size) := by
  rw [ReadValues.parse, if_pos hgroup]
  refine Follows.congr
    (Follows.bind (fun v => UInt64.ofNat v.values.length) follows_u64 (fun count =>
      Follows.field ReadValues.timeEnabled (fun _ _ => rfl) (follows_u64.whenSelected _ _) fun _ =>
      Follows.field ReadValues.timeRunning (fun _ _ => rfl) (follows_u64.whenSelected _ _) fun _ =>
      Follows.field ReadValues.values (fun _ _ => rfl)
        (follows_times (follows_parseCounter fmt) count.toNat) fun _ =>
      Follows.built _) ?_) fun bs v => ?_
  · simp only [selected_written, nothing_eq_written, written_andThen_written]
    rintro count - v - - ⟨⟨⟨-, -, ⟨hlen, -⟩, -⟩, -⟩, -⟩
    rw [hlen, UInt64.ofNat_toNat]
  · simp only [selected_written, nothing_eq_written, written_andThen_written, if_true_left,
      Bool.not_eq_true, List.append_nil, and_true, true_and]
    have hencode : v.encode fmt = Bytes.u64 (UInt64.ofNat v.values.length) ++
        (Bytes.whenSelected (fmt.has .timeEnabled) (Bytes.u64 v.timeEnabled) ++
          (Bytes.whenSelected (fmt.has .timeRunning) (Bytes.u64 v.timeRunning) ++
            v.values.flatMap (encodeCounter fmt))) := by
      simp only [ReadValues.encode, if_pos hgroup, List.append_assoc]
    constructor
    · rintro ⟨⟨henabled, hrunning, hlen, hids⟩, rfl⟩
      refine ⟨⟨⟨fun h => ?_, henabled, hrunning, fun h c hc => hids c hc h⟩, ?_⟩, hencode.symm⟩
      · rw [hgroup] at h
        cases h
      · rw [hlen]
        exact UInt64.toNat_lt_size _
    · rintro ⟨⟨⟨-, henabled, hrunning, hids⟩, hlen⟩, rfl⟩
      exact ⟨⟨henabled, hrunning, (ofNat_length_toNat hlen).symm, fun c hc h => hids h c hc⟩,
        hencode⟩

theorem ReadValues.follows_parse_single {fmt : ReadFormat} (hgroup : fmt.has .group = false) :
    Follows (ReadValues.parse fmt) (written (ReadValues.encode fmt) fun v =>
      v.WellFormed fmt ∧ v.values.length < UInt64.size) := by
  rw [ReadValues.parse, if_neg (by simp [hgroup])]
  refine Follows.congr
    (Follows.field (fun v : ReadValues => (v.values.headD (0, 0)).1) (by intros; rfl)
      follows_u64 fun _ =>
    Follows.field ReadValues.timeEnabled (fun _ _ => rfl) (follows_u64.whenSelected _ _) fun _ =>
    Follows.field ReadValues.timeRunning (fun _ _ => rfl) (follows_u64.whenSelected _ _) fun _ =>
    Follows.field (fun v : ReadValues => (v.values.headD (0, 0)).2) (by intros; rfl)
      (follows_u64.whenSelected _ _) fun _ =>
    Follows.built _) fun bs v => ?_
  simp only [selected_written, nothing_eq_written, written_andThen_written, if_true_left,
    Bool.not_eq_true, List.append_nil, and_true, true_and]
  have hencode : v.encode fmt = Bytes.u64 (v.values.headD (0, 0)).1 ++
      (Bytes.whenSelected (fmt.has .timeEnabled) (Bytes.u64 v.timeEnabled) ++
        (Bytes.whenSelected (fmt.has .timeRunning) (Bytes.u64 v.timeRunning) ++
          Bytes.whenSelected (fmt.has .id) (Bytes.u64 (v.values.headD (0, 0)).2))) := by
    simp only [ReadValues.encode, hgroup, Bool.false_eq_true, if_false, List.append_assoc]
  constructor
  · rintro ⟨⟨⟨henabled, hrunning, hid⟩, rfl⟩, hv⟩
    have hvalues : v.values = [((v.values.headD (0, 0)).1, (v.values.headD (0, 0)).2)] :=
      congrArg ReadValues.values hv
    refine ⟨⟨⟨fun _ => ?_, henabled, hrunning, fun h c hc => ?_⟩, ?_⟩, hencode.symm⟩
    · rw [hvalues]
      rfl
    · rw [hvalues, List.mem_singleton] at hc
      rw [hc]
      exact hid h
    · rw [hvalues, List.length_singleton]
      decide
  · rintro ⟨⟨⟨hsingle, henabled, hrunning, hids⟩, -⟩, rfl⟩
    obtain ⟨c, hc⟩ := List.length_eq_one_iff.mp (hsingle hgroup)
    refine ⟨⟨⟨henabled, hrunning, fun h => ?_⟩, hencode⟩, ?_⟩
    · rw [hc]
      exact hids h c (by simp [hc])
    · obtain ⟨timeEnabled, timeRunning, values⟩ := v
      simp only at hc
      rw [hc]
      rfl

theorem ReadValues.follows_parse (fmt : ReadFormat) :
    Follows (ReadValues.parse fmt) (written (ReadValues.encode fmt) fun v =>
      v.WellFormed fmt ∧ v.values.length < UInt64.size) := by
  cases hgroup : fmt.has .group with
  | true => exact ReadValues.follows_parse_group hgroup
  | false => exact ReadValues.follows_parse_single hgroup

/-! ### Lists with their number before them -/

/-- A list after a word for its length, given that words are the lengths below
a bound. -/
theorem follows_counted {N α : Type} {count : Parse N} {bytes : N → Bytes} {toNat : N → Nat}
    {ofNat : Nat → N} {bound : Nat} {items : Nat → Parse (List α)} {encode : List α → Bytes}
    (hcount : Follows count (written bytes fun _ => True))
    (hitems : ∀ n, Follows (items n) (written encode fun l => l.length = n))
    (hword : ∀ n, ofNat (toNat n) = n) (hlt : ∀ n, toNat n < bound)
    (hnat : ∀ n < bound, toNat (ofNat n) = n) :
    Follows (do items (toNat (← count)))
      (written (fun l => bytes (ofNat l.length) ++ encode l) fun l => l.length < bound) := by
  refine Follows.congr (Follows.bind (fun l => ofNat l.length) hcount (fun n => hitems (toNat n))
    ?_) fun bs l => ?_
  · rintro n - l - - ⟨hlen, -⟩
    rw [hlen, hword]
  · rw [written_andThen_written, written, written]
    constructor
    · rintro ⟨⟨-, hlen⟩, rfl⟩
      exact ⟨hlen ▸ hlt _, rfl⟩
    · rintro ⟨hlen, rfl⟩
      exact ⟨⟨trivial, (hnat _ hlen).symm⟩, rfl⟩

theorem follows_callchain : Follows (do u64s (← u64).toNat)
    (written (fun ips => Bytes.u64 (UInt64.ofNat ips.length) ++ Bytes.u64s ips)
      fun ips => ips.length < UInt64.size) :=
  follows_counted follows_u64 follows_u64s (fun _ => UInt64.ofNat_toNat) UInt64.toNat_lt_size
    fun _ => UInt64.toNat_ofNat_of_lt'

theorem follows_raw : Follows (do take (← u32).toNat)
    (written (fun data => Bytes.u32 (UInt32.ofNat data.length) ++ data)
      fun data => data.length < UInt32.size) :=
  follows_counted follows_u32 follows_take (fun _ => UInt32.ofNat_toNat) UInt32.toNat_lt_size
    fun _ => UInt32.toNat_ofNat_of_lt'

theorem follows_parseTable {width : Nat} (hwidth : 0 < width) {tooMany : Nat → Corruption}
    (htooMany : ∀ count size, (tooMany count).Refused size) :
    Follows (parseTable width tooMany)
      (written (fun ws => Bytes.u64 (UInt64.ofNat (ws.length / width)) ++ Bytes.u64s ws)
        fun ws => width ∣ ws.length ∧ ws.length < UInt64.size) := by
  have hrest : ∀ count : UInt64, Follows
      (if count.toNat * width < UInt64.size then u64s (count.toNat * width)
        else Parse.failAt fun _ => tooMany count.toNat)
      (written Bytes.u64s fun ws => ws.length = count.toNat * width ∧ ws.length < UInt64.size) := by
    intro count
    split
    · next h =>
      refine (follows_u64s _).congr fun bs ws => ?_
      simp only [written]
      constructor
      · rintro ⟨hlen, rfl⟩
        exact ⟨⟨hlen, hlen ▸ h⟩, rfl⟩
      · rintro ⟨⟨hlen, -⟩, rfl⟩
        exact ⟨hlen, rfl⟩
    · next h =>
      refine (follows_failAt fun _ => htooMany _ _).congr fun bs ws => ?_
      rw [false_iff]
      rintro ⟨⟨hlen, hlt⟩, -⟩
      exact h (hlen ▸ hlt)
  refine Follows.congr
    (Follows.bind (fun ws => UInt64.ofNat (ws.length / width)) follows_u64 hrest ?_) fun bs ws => ?_
  · rintro count - ws - - ⟨⟨hlen, -⟩, -⟩
    rw [hlen, Nat.mul_div_cancel _ hwidth, UInt64.ofNat_toNat]
  · rw [written_andThen_written, written, written]
    constructor
    · rintro ⟨⟨-, hlen, hlt⟩, rfl⟩
      exact ⟨⟨⟨_, hlen.trans (Nat.mul_comm _ _)⟩, hlt⟩, rfl⟩
    · rintro ⟨⟨hdvd, hlt⟩, rfl⟩
      have hdiv : ws.length / width < UInt64.size := Nat.lt_of_le_of_lt (Nat.div_le_self _ _) hlt
      exact ⟨⟨trivial, by rw [UInt64.toNat_ofNat_of_lt' hdiv, Nat.div_mul_cancel hdvd], hlt⟩, rfl⟩

/-- The entries of a table, given that entries and words determine each
other. -/
theorem follows_entries {β : Type} {width : Nat} (hwidth : 0 < width)
    {tooMany : Nat → Corruption} (htooMany : ∀ count size, (tooMany count).Refused size)
    (entries : List UInt64 → List β) (words : β → List UInt64) {encode : β → Bytes}
    (hlen : ∀ b, (words b).length = width)
    (hencode : ∀ b, Bytes.u64s (words b) = encode b)
    (hentries : ∀ bs, entries (bs.flatMap words) = bs)
    (hwords : ∀ ws, width ∣ ws.length → (entries ws).flatMap words = ws) :
    Follows (entries <$> parseTable width tooMany)
      (written (fun bs => Bytes.u64 (UInt64.ofNat bs.length) ++ bs.flatMap encode)
        fun bs => bs.length * width < UInt64.size) := by
  have hflat : ∀ bs : List β, (bs.flatMap words).length = bs.length * width := by
    intro bs
    simp [List.length_flatMap, hlen, List.map_const']
  have h := (follows_parseTable hwidth htooMany).map_written entries
    (fun bs => bs.flatMap words) (fun bs => bs.length * width < UInt64.size)
    (fun ws ⟨hdvd, hlt⟩ => ⟨by rwa [← hflat, hwords ws hdvd], hwords ws hdvd⟩)
    fun bs hlt => ⟨⟨⟨bs.length, by rw [hflat, Nat.mul_comm]⟩, by rwa [hflat]⟩, hentries bs⟩
  refine h.congr fun bs vs => ?_
  have hbytes : Bytes.u64s (vs.flatMap words) = vs.flatMap encode :=
    calc Bytes.u64s (vs.flatMap words)
      _ = vs.flatMap fun b => Bytes.u64s (words b) := List.flatMap_assoc
      _ = vs.flatMap encode := by simp only [hencode]
  simp only [written, Function.comp_apply, hbytes, hflat, Nat.mul_div_cancel _ hwidth]

def Branch.words (b : Branch) : List UInt64 := [b.source, b.target, b.flags]

theorem branchesOf_flatMap_words : ∀ bs : List Branch, branchesOf (bs.flatMap Branch.words) = bs
  | [] => rfl
  | b :: bs => congrArg (b :: ·) (branchesOf_flatMap_words bs)

theorem flatMap_words_branchesOf : ∀ ws : List UInt64, 3 ∣ ws.length →
    (branchesOf ws).flatMap Branch.words = ws
  | [], _ => rfl
  | [_], h | [_, _], h => by simp at h
  | source :: target :: flags :: ws, h => by
    have hws : 3 ∣ ws.length := (Nat.dvd_add_iff_left (Nat.dvd_refl 3)).mpr h
    exact congrArg ([source, target, flags] ++ ·) (flatMap_words_branchesOf ws hws)

theorem follows_parseBranches : Follows parseBranches
    (written (fun bs => Bytes.u64 (UInt64.ofNat bs.length) ++ bs.flatMap Branch.encode)
      fun bs => bs.length * 3 < UInt64.size) :=
  have hmany : ∀ count size, (Corruption.branchCount count).Refused size := fun _ _ => trivial
  follows_entries (by decide) hmany branchesOf Branch.words (fun _ => rfl)
    (fun b => by simp [Branch.words, Branch.encode]) branchesOf_flatMap_words
    flatMap_words_branchesOf

theorem pairsOf_flatMap : ∀ ids : List (UInt64 × UInt64),
    pairsOf (ids.flatMap fun p => [p.1, p.2]) = ids
  | [] => rfl
  | p :: ids => congrArg (p :: ·) (pairsOf_flatMap ids)

theorem flatMap_pairsOf : ∀ ws : List UInt64, 2 ∣ ws.length →
    ((pairsOf ws).flatMap fun p => [p.1, p.2]) = ws
  | [], _ => rfl
  | [_], h => by simp at h
  | a :: b :: ws, h => by
    have hws : 2 ∣ ws.length := (Nat.dvd_add_iff_left (Nat.dvd_refl 2)).mpr h
    exact congrArg ([a, b] ++ ·) (flatMap_pairsOf ws hws)

theorem follows_parseIdPairs : Follows parseIdPairs
    (written encodeIdPairs fun ids => ids.length * 2 < UInt64.size) :=
  have hmany : ∀ count size, (Corruption.eventIdCount count).Refused size := fun _ _ => trivial
  follows_entries (by decide) hmany pairsOf (fun p => [p.1, p.2]) (fun _ => rfl)
    (fun p => by simp) pairsOf_flatMap flatMap_pairsOf

/-! ### Registers, stack and blobs -/

theorem UserRegs.follows_parse (mask : UInt64) :
    Follows (UserRegs.parse mask)
      (written UserRegs.encode fun r => r.mask = mask ∧ r.WellFormed) := by
  refine Follows.congr
    (Follows.bind UserRegs.abi follows_u64 (fun abi =>
      Follows.field UserRegs.values (fun _ _ => rfl)
        ((follows_u64s (popCount mask)).whenSelected (abi != 0) []) fun _ =>
      Follows.built _) ?_) fun bs r => ?_
  · rintro abi - r - - ⟨-, hr⟩
    rw [hr]
  · simp only [selected_written, nothing_eq_written, written_andThen_written, List.append_nil,
      and_true]
    have hlen : r.WellFormed ↔
        if (r.abi != 0) = true then r.values.length = popCount r.mask else r.values = [] := by
      rw [UserRegs.WellFormed]
      by_cases h : r.abi = 0 <;> simp [h]
    constructor
    · rintro ⟨_, back, rfl, ⟨-, rfl⟩, ⟨hvalues, rfl⟩, hr⟩
      have hmask : r.mask = mask := congrArg UserRegs.mask hr
      exact ⟨⟨hmask, hlen.mpr (by rwa [hmask])⟩, rfl⟩
    · rintro ⟨⟨rfl, hr⟩, rfl⟩
      exact ⟨_, _, rfl, ⟨trivial, rfl⟩, ⟨hlen.mp hr, rfl⟩, rfl⟩

theorem UserStack.follows_parse :
    Follows UserStack.parse
      (written UserStack.encode fun s => s.WellFormed ∧ s.data.length < UInt64.size) := by
  have hrest : ∀ size : UInt64, Follows
      (if size = 0 then return {} else do
        let data ← take size.toNat
        let dynSize ← u64
        return ({ data, dynSize } : UserStack))
      (written (fun s => Bytes.whenSelected (!s.data.isEmpty) (s.data ++ Bytes.u64 s.dynSize))
        fun s => s.data.length = size.toNat ∧ s.WellFormed) := by
    intro size
    split
    · next h =>
      refine (Follows.built _).congr fun bs s => ?_
      simp only [nothing, written, h, UInt64.toNat_zero, List.length_eq_zero_iff]
      constructor
      · rintro ⟨rfl, rfl⟩
        exact ⟨⟨rfl, fun _ => rfl⟩, rfl⟩
      · rintro ⟨⟨hdata, hs⟩, rfl⟩
        obtain ⟨data, dynSize⟩ := s
        obtain rfl : data = [] := hdata
        obtain rfl : dynSize = 0 := hs rfl
        exact ⟨rfl, rfl⟩
    · next h =>
      refine Follows.congr
        (Follows.field UserStack.data (fun _ _ => rfl) (follows_take _) fun _ =>
        Follows.field UserStack.dynSize (fun _ _ => rfl) follows_u64 fun _ =>
        Follows.built _) fun bs s => ?_
      have hne : s.data.length = size.toNat → s.data ≠ [] := fun hlen hnil => h <| by
        rw [hnil, List.length_nil] at hlen
        exact UInt64.toNat_inj.mp hlen.symm
      simp only [nothing_eq_written, written_andThen_written, List.append_nil, and_true, written]
      constructor
      · rintro ⟨hlen, rfl⟩
        refine ⟨⟨hlen, fun hnil => (hne hlen hnil).elim⟩, ?_⟩
        simp [Bytes.whenSelected, hne hlen]
      · rintro ⟨⟨hlen, -⟩, rfl⟩
        refine ⟨hlen, ?_⟩
        simp [Bytes.whenSelected, hne hlen]
  refine Follows.congr
    (Follows.bind (fun s => UInt64.ofNat s.data.length) follows_u64 hrest ?_) fun bs s => ?_
  · rintro size - s - - ⟨⟨hlen, -⟩, -⟩
    rw [hlen, UInt64.ofNat_toNat]
  · rw [written_andThen_written, written, written]
    constructor
    · rintro ⟨⟨-, hlen, hs⟩, rfl⟩
      exact ⟨⟨hs, hlen ▸ UInt64.toNat_lt_size _⟩, rfl⟩
    · rintro ⟨⟨hs, hlt⟩, rfl⟩
      exact ⟨⟨trivial, (ofNat_length_toNat hlt).symm, hs⟩, rfl⟩

/-- A blob, its length before it and any padding after it. -/
def Format.blob (alignment : Nat) : Format Bytes := fun bs data =>
  data.length < UInt32.size ∧ ∃ padding, bs = Bytes.u32 (UInt32.ofNat data.length) ++ (data ++ padding) ∧
    padding.length = alignUp data.length alignment - data.length

theorem follows_skipAfter {α : Type} (n : Nat) (v : α) :
    Follows (do skip n; return v) fun bs w => bs.length = n ∧ w = v := by
  refine ((follows_skip n).map fun _ => v).congr fun bs w => ⟨?_, ?_⟩
  · rintro ⟨_, hlen, rfl⟩
    exact ⟨hlen, rfl⟩
  · rintro ⟨hlen, rfl⟩
    exact ⟨(), hlen, rfl⟩

theorem follows_parseBlob (alignment : Nat) :
    Follows (parseBlob alignment) (Format.blob alignment) := by
  refine Follows.congr
    (Follows.bind (fun data => UInt32.ofNat data.length) follows_u32 (fun size =>
      Follows.bind id (follows_take size.toNat)
        (fun data => follows_skipAfter (alignUp size.toNat alignment - size.toNat) data)
        fun _ _ ⟨_, hdata⟩ => hdata) ?_) fun bs data => ?_
  · rintro size - data - - ⟨_, _, -, ⟨hlen, -⟩, -⟩
    rw [← UInt32.ofNat_toNat (x := size), ← hlen]
    rfl
  · constructor
    · rintro ⟨_, _, rfl, ⟨-, rfl⟩, taken, padding, rfl, ⟨hlen, htaken⟩, hpadding, -⟩
      have hlen : data.length = (UInt32.ofNat data.length).toNat := hlen
      have htaken : taken = data := htaken
      rw [← hlen] at hpadding
      exact ⟨hlen ▸ UInt32.toNat_lt_size _, padding, by rw [htaken], hpadding⟩
    · rintro ⟨hlt, padding, rfl, hpadding⟩
      have hlen : (UInt32.ofNat data.length).toNat = data.length := UInt32.toNat_ofNat_of_lt' hlt
      exact ⟨_, _, rfl, ⟨trivial, rfl⟩, _, padding, rfl, ⟨hlen.symm, rfl⟩, by rw [hlen, hpadding],
        rfl⟩

end Profiler
